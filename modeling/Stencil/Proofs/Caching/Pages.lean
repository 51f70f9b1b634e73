import Stencil.Proofs.Caching.Decisions
import Stencil.Proofs.Caching.Soundness
import Stencil.Proofs.DataAwareKeys

/-!
The cache of outputs in a session. A key that minds the data tells the key that was asked for and the
variables, and an output under such a key was rendered in the session for a request with this key and with
variables that match. A page that was rendered is found again as long as its file keeps its time.
-/

namespace Stencil

open Template

namespace Digest

theorem length_hexDigits (n count : Nat) : (hexDigits n count).length = count := by
  induction count with
  | zero => rfl
  | succ count ih => exact congrArg (· + 1) ih

theorem length_sha256Hex (s : String) : (sha256Hex s).toList.length = 64 := by
  have hwords (bytes : List UInt8) : (sha256 bytes).length = 8 := rfl
  unfold sha256Hex
  rw [String.toList_ofList, List.length_flatMap]
  simp only [length_hexDigits, List.map_const', List.sum_replicate, hwords]
  rfl

end Digest

namespace Engine

variable {engine : Engine} {shared : Shared} {site : Site} {disks : List Disk} {texts : List String}

/-- A key that minds the data tells the key that was asked for and the fingerprint of the variables. -/
theorem outputKey_inj {key key' : String} {extra extra' : Variables}
    (h : engine.outputKey shared key true extra = engine.outputKey shared key' true extra') :
    key = key' ∧ (engine.environment shared extra).fingerprint =
      (engine.environment shared extra').fingerprint := by
  have hlist := congrArg String.toList h
  unfold outputKey at hlist
  simp only [if_true, String.toList_append] at hlist
  have hlength : (engine.environment shared extra).fingerprint.toList.length =
      (engine.environment shared extra').fingerprint.toList.length :=
    (Digest.length_sha256Hex _).trans (Digest.length_sha256Hex _).symm
  obtain ⟨hkeys, hfingerprints⟩ := List.append_inj' hlist hlength
  exact ⟨String.toList_injective (List.append_cancel_right hkeys),
    String.toList_injective hfingerprints⟩

/-- Variables that match render a file to the same output. -/
theorem fileOutput_matching {extra extra' : Variables}
    (h : (engine.environment shared extra).Matches (engine.environment shared extra')) (path : String)
    (isPage : Bool) :
    engine.fileOutput shared site path extra isPage =
      engine.fileOutput shared site path extra' isPage := by
  have htree (tree : Markup.Tree) :
      engine.treeOutput shared site tree extra = engine.treeOutput shared site tree extra' := by
    funext decisions
    obtain ⟨houtput, hdecisions⟩ := Render.run_matching (engine.renderer shared site) h tree engine.vars
      ⟨decisions, []⟩ (Shelf.empty engine.settings.cache)
    exact Prod.ext houtput hdecisions
  unfold fileOutput
  simp only [htree]

/-- A page that is kept with nothing else and does not expire is served again, as long as its file has the
time of last change that it had. -/
theorem renderCached_again {work : Work} (known : Known disks texts) (hdisk : site.disk ∈ disks)
    (hwork : work.Sound engine shared disks texts) (hempty : work.engine.outputs.entries = [])
    {path key : String} {mindsData : Bool} {extra : Variables} {location : Disk.Location} {file : File}
    {text : String} (hlocation : locate engine.settings site.disk path true = .ok location)
    (hfile : site.disk.file? location = some file) :
    ∀ done, done = renderCached site path key none mindsData extra work → done.1 = .ok text →
      ∀ (site' : Site) location' file', locate engine.settings site'.disk path true = .ok location' →
        site'.disk.file? location' = some file' → file.modified = file'.modified →
        (renderCached site' path key none mindsData extra done.2).1 = .ok text := by
  intro done hdone hgiven site' location' file' hlocation' hfile' htime
  obtain ⟨hsound, -⟩ := renderCached_gives (P := fun _ _ => True) known hdisk hwork
    (fun _ _ => trivial) path key none mindsData extra done hdone fun _ _ _ _ _ _ _ _ => trivial
  have hmissed : ∃ outputs, work.engine.outputs.lookupIf (·.isFresh site.now file.modified)
      (work.engine.outputKey work.shared key mindsData extra) = (none, outputs) ∧
      outputs.size = 0 := by
    unfold Cache.lookupIf Cache.find? Cache.size
    rw [hempty]
    exact ⟨_, rfl, rfl⟩
  obtain ⟨outputs, hlookup, hsize⟩ := hmissed
  rw [renderCached_run, hwork.settings, hlocation] at hdone
  dsimp only at hdone
  rw [hfile] at hdone
  dsimp only at hdone
  rw [hlookup] at hdone
  obtain ⟨tree, modified, hfound, houtputs⟩ := keptOutput_keeps _ _ _ _ _ _ done hdone text hgiven
  have hparsed : parsedFile engine.settings site.disk location = .ok (tree, modified) :=
    (Shelf.gives_treeOfFile known hdisk location _ hwork.shelf).1.symm.trans hfound
  obtain ⟨old, hold, hmodified⟩ := file?_of_parsedFile hparsed
  obtain rfl : old = file := Option.some.inj (hold.symm.trans hfile)
  have hkey : done.2.engine.outputKey done.2.shared key mindsData extra =
      work.engine.outputKey work.shared key mindsData extra := by
    unfold outputKey
    rw [hsound.environment, hwork.environment]
  have hserved : ((outputs.insert (work.engine.outputKey work.shared key mindsData extra)
      ⟨text, none, modified⟩).lookupIf (·.isFresh site'.now file'.modified)
      (work.engine.outputKey work.shared key mindsData extra)).1 = some ⟨text, none, modified⟩ :=
    Cache.lookupIf_insert (by omega) (by simp [Page.isFresh, ← hmodified, htime])
  rw [renderCached_run, hsound.settings, hlocation']
  dsimp only
  rw [hfile', hkey, houtputs]
  dsimp only
  rcases hagain : (outputs.insert _ _).lookupIf _ _ with ⟨page, after⟩
  rw [hagain] at hserved
  obtain rfl : page = some _ := hserved
  rfl

end Engine

/-- The pages asked for in a history. -/
def requestsOf (history : History) : List PageRequest :=
  history.filterMap fun
    | .page request => some request
    | _ => none

theorem mem_requestsOf {later earlier : History} {request : PageRequest} :
    request ∈ requestsOf (later ++ .page request :: earlier) := by
  unfold requestsOf
  rw [List.filterMap_append, List.filterMap_cons]
  exact List.mem_append_right _ (List.mem_cons_self ..)

/-- A request that minds the data, for the page of its key, with variables that JSON tells apart. -/
structure PageRequest.DataAware (pathOf : String → String) (request : PageRequest) : Prop where
  path : request.path = pathOf request.key
  mindsData : request.mindsData = true
  folded : request.extra.Folded
  plain : request.extra.Plain

/-- The time of last change of the file that the path of a page leads to. -/
def pageTime? (settings : Settings) (disk : Disk) (path : String) : Option Int :=
  match locate settings disk path true with
  | .ok location => (disk.file? location).map File.modified
  | .error _ => none

theorem pageTime?_eq_some {settings : Settings} {disk : Disk} {path : String} {location : Disk.Location}
    {file : File} (hlocation : locate settings disk path true = .ok location)
    (hfile : disk.file? location = some file) :
    pageTime? settings disk path = some file.modified := by
  unfold pageTime?
  rw [hlocation]
  dsimp only
  rw [hfile]
  rfl

namespace Session

/-- The answer for a page that is rendered without the cache of outputs. -/
def uncached (session : Session) (request : PageRequest) : Answer :=
  (session.answer (.renderFile request.path request.extra true)).1

/-- What a page was made of is where it was: its path leads to the same file, and the paths of the
components and layouts that it loaded lead to the same templates. -/
structure Unedited (engine : Engine) (shared : Shared) (past now : Session) (asked : PageRequest) :
    Prop where
  page : locate engine.settings past.site.disk asked.path true =
    locate engine.settings now.site.disk asked.path true
  components : ∀ path ∈ engine.fileLoads shared past.site asked.path asked.extra true
      past.work.shared.decisions,
    parsedComponent engine.settings past.site.disk path =
      parsedComponent engine.settings now.site.disk path

/-- A page as it was rendered for a request in a past session. What the render came to is decided. -/
structure Rendered (engine : Engine) (shared : Shared) (past : Session) (asked : PageRequest) (page : Page)
    (final : Decisions) : Prop where
  text : (engine.fileOutput shared past.site asked.path asked.extra true
    past.work.shared.decisions).1 = .ok page.text
  decided : (engine.fileOutput shared past.site asked.path asked.extra true
    past.work.shared.decisions).2.Within final
  file : ∃ location tree, locate engine.settings past.site.disk asked.path true = .ok location ∧
    parsedFile engine.settings past.site.disk location = .ok (tree, page.modified)

/-- A page that was rendered in a history, for a request with its key. -/
def Kept (engine : Engine) (shared : Shared) (site : Site) (history : History) (key : String)
    (page : Page) : Prop :=
  ∃ later asked earlier, history = later ++ .page asked :: earlier ∧
    key = engine.outputKey shared asked.key asked.mindsData asked.extra ∧
    Rendered engine shared ((opened engine shared site).after earlier) asked page
      ((opened engine shared site).after history).work.shared.decisions

section Sessions

variable {engine : Engine} {shared : Shared} {site : Site} {texts : List String} {history : History}
  {request : PageRequest}

theorem after_page (start : Session) (earlier : History) :
    start.after (.page request :: earlier) = ((start.after earlier).page request).2 := rfl

variable (engine shared site) in
/-- The outputs of a session were rendered in it, whatever was done since. -/
theorem after_kept (known : Known (site.disk.states history) texts)
    (htexts : site.disk.textsIn history ⊆ texts) :
    ((opened engine shared site).after history).Sound engine shared (site.disk.states history) texts ∧
      ((opened engine shared site).after history).work.engine.outputs.Holds
        (Kept engine shared site history) := by
  refine after_sound (Kept engine shared site) known htexts ?_ ?_
  · rintro action _ key page ⟨later, asked, earlier, rfl, hkey, rendered⟩
    exact ⟨action :: later, asked, earlier, rfl, hkey,
      { rendered with decided := rendered.decided.trans (perform_grows _ action) }⟩
  · intro asked earlier _ past text location tree modified htext hlocation hparsed hdecisions
    refine ⟨[], asked, earlier, rfl, rfl, htext, ?_, location, tree, hlocation, hparsed⟩
    rw [after_page, hdecisions]
    exact Decisions.within_refl _

variable (engine shared site) in
/-- Among what is known at the end of a history a past session is sound, too. -/
theorem past_sound {earlier : History} (hsuffix : earlier <:+ history)
    (known : Known (site.disk.states history) texts) (htexts : site.disk.textsIn history ⊆ texts) :
    ((opened engine shared site).after earlier).site.disk ∈ site.disk.states history ∧
      ((opened engine shared site).after earlier).Sound engine shared (site.disk.states history)
        texts := by
  obtain ⟨later, rfl⟩ := hsuffix
  have hstates : site.disk.states earlier ⊆ site.disk.states (later ++ earlier) :=
    (site.disk.states_suffix later earlier).subset
  have hearlier : site.disk.textsIn earlier ⊆ texts := by
    intro text htext
    refine htexts ?_
    unfold Disk.textsIn at htext ⊢
    rw [List.flatMap_append]
    rcases List.mem_append.1 htext with hdisk | hlater
    · exact List.mem_append_left _ hdisk
    · exact List.mem_append_right _ (List.mem_append_right _ hlater)
  refine ⟨?_, (after_kept engine shared site (known.mono hstates) hearlier).1.mono hstates⟩
  rw [(after_site _ _).2]
  exact hstates (site.disk.after_mem_states earlier)

variable (request) in
theorem uncached_eq {session : Session} {disks : List Disk} (known : Known disks texts)
    (hdisk : session.site.disk ∈ disks) (h : session.Sound engine shared disks texts) :
    session.uncached request = .output (engine.fileOutput shared session.site request.path
      request.extra true session.work.shared.decisions).1 :=
  (answer_sound known hdisk h (.renderFile request.path request.extra true)
    (List.nil_subset _)).1

/-- Requests with one key of an output are for one page and for variables that match. -/
theorem matches_of_outputKey {pathOf : String → String} {asked : PageRequest}
    (folded : shared.globals.Folded ∧ engine.vars.Folded)
    (plain : shared.globals.Plain ∧ engine.vars.Plain)
    (aware : asked.DataAware pathOf) (aware' : request.DataAware pathOf) (digests : CollisionFree texts)
    (hmem : (engine.environment shared asked.extra).serialized ∈ texts)
    (hmem' : (engine.environment shared request.extra).serialized ∈ texts)
    (h : engine.outputKey shared request.key request.mindsData request.extra =
      engine.outputKey shared asked.key asked.mindsData asked.extra) :
    asked.key = request.key ∧ asked.path = request.path ∧
      (engine.environment shared request.extra).Matches (engine.environment shared asked.extra) := by
  rw [aware.mindsData, aware'.mindsData] at h
  obtain ⟨hkey, hfingerprint⟩ := Engine.outputKey_inj h
  refine ⟨hkey.symm, ?_, ?_⟩
  · rw [aware.path, aware'.path, hkey]
  · refine Variables.matches_of_serialized ?_ ?_ (digests _ hmem' _ hmem hfingerprint)
    · simp [folded, aware.folded, aware'.folded]
    · simp [plain, aware.plain, aware'.plain]

/-- A page that is given as it was rendered in a past session is what is rendered in a later one, if what
it was made of is where it was. -/
theorem Rendered.again {past now : Session} {asked : PageRequest} {page : Page} {disks : List Disk}
    {location : Disk.Location} {file : File}
    (rendered : Rendered engine shared past asked page now.work.shared.decisions)
    (known : Known disks texts) (hdisk : past.site.disk ∈ disks) (hdisk' : now.site.disk ∈ disks)
    (hhost : past.site.host = now.site.host)
    (hlocation : locate engine.settings now.site.disk asked.path true = .ok location)
    (hfile : now.site.disk.file? location = some file) (htime : page.modified = file.modified)
    (unedited : Unedited engine shared past now asked) :
    (engine.fileOutput shared now.site asked.path asked.extra true now.work.shared.decisions).1 =
      .ok page.text := by
  obtain ⟨place, tree, hplace, hparsed⟩ := rendered.file
  obtain rfl : place = location :=
    Except.ok.inj ((hplace.symm.trans unedited.page).trans hlocation)
  obtain ⟨old, hold, hmodified⟩ := file?_of_parsedFile hparsed
  have hsame : old = file :=
    known.dated _ hdisk _ hdisk' place old hold file hfile (hmodified.trans htime)
  have hparsed' : parsedFile engine.settings now.site.disk place = .ok (tree, page.modified) := by
    rw [← hparsed]
    exact parsedFile_congr engine.settings (hfile.trans (hsame ▸ hold.symm))
  have htext := rendered.text
  have hdecided := rendered.decided
  have hcomponents := unedited.components
  rw [Engine.fileOutput_of_parsed hplace hparsed] at htext hdecided
  rw [Engine.fileLoads_of_parsed hplace hparsed] at hcomponents
  rw [Engine.fileOutput_of_parsed hlocation hparsed', ← htext]
  exact Engine.treeOutput_again known hdisk hdisk' hhost tree asked.extra hcomponents hdecided

end Sessions

end Session

end Stencil
