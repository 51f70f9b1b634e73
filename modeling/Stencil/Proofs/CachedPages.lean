import Stencil.Proofs.Caching.Pages
import Stencil.Proofs.Rendering.Component

/-!
What is given for a page that is asked for through the cache of outputs, compared with the page rendered
without it. Only the file of a page is looked at again: while its time of last change stays, the page is
given as it was, and what has become of its components and layouts meanwhile does not show.
-/

namespace Stencil

open Markup Template

namespace Session

/-- A page is given as it is rendered without the cache of outputs, or as it was rendered for a past request
with its key. Then its file has the time of last change that it had, and the page is as it is rendered now
unless its path, or the path of a component or layout that it loaded, leads elsewhere. -/
theorem page_eq_uncached_or_earlier (engine : Engine) (shared : Shared) (site : Site) (history : History)
    (request : PageRequest) (pathOf : String → String)
    (folded : shared.globals.Folded ∧ engine.vars.Folded)
    (plain : shared.globals.Plain ∧ engine.vars.Plain)
    (requests : ∀ asked ∈ request :: requestsOf history, asked.DataAware pathOf)
    (anew : site.disk.EditedAnew history)
    (digests : CollisionFree (site.disk.textsIn history ++ (request :: requestsOf history).map
      fun asked => (engine.environment shared asked.extra).serialized)) :
    let start := opened engine shared site
    let now := start.after history
    .output (now.page request).1 = now.uncached request ∨
      ∃ later asked earlier, history = later ++ .page asked :: earlier ∧ asked.key = request.key ∧
        let past := start.after earlier
        .output (now.page request).1 = past.uncached request ∧
        (∃ time, pageTime? engine.settings past.site.disk request.path = some time ∧
          pageTime? engine.settings now.site.disk request.path = some time) ∧
        (Unedited engine shared past now asked →
          .output (now.page request).1 = now.uncached request) := by
  intro start now
  have known : Known (site.disk.states history) _ :=
    anew.known digests (List.subset_append_left ..)
  obtain ⟨hsound, houtputs⟩ := after_kept engine shared site known (List.subset_append_left ..)
  have hdisk : now.site.disk ∈ site.disk.states history := by
    rw [(after_site _ _).2]
    exact site.disk.after_mem_states history
  have huncached := uncached_eq request known hdisk hsound
  rcases page_reckoned_or_kept known hdisk hsound houtputs request with
    hgiven | ⟨location, file, page, hlocation, hfile, hfresh, hkept, hgiven⟩
  · exact Or.inl (by rw [huncached, hgiven])
  · obtain ⟨later, asked, earlier, hhistory, hkey, rendered⟩ := hkept
    have hasked : asked ∈ request :: requestsOf history :=
      List.mem_cons_of_mem _ (hhistory ▸ mem_requestsOf)
    obtain ⟨hkeys, hpath, hmatches⟩ := matches_of_outputKey folded plain (requests asked hasked)
      (requests request (List.mem_cons_self ..)) digests
      (List.mem_append_right _ (List.mem_map_of_mem hasked))
      (List.mem_append_right _ (List.mem_map_of_mem (List.mem_cons_self ..))) hkey
    have hsuffix : earlier <:+ history := by
      rw [hhistory]
      exact (List.suffix_cons _ _).trans (List.suffix_append ..)
    obtain ⟨hbefore, hpast⟩ :=
      past_sound engine shared site hsuffix known (List.subset_append_left ..)
    have huncached' := uncached_eq request known hbefore hpast
    rw [Engine.fileOutput_matching hmatches] at huncached huncached'
    obtain ⟨place, tree, hplace, hparsed⟩ := rendered.file
    obtain ⟨old, hold, hmodified⟩ := file?_of_parsedFile hparsed
    have htime : page.modified = file.modified := by
      unfold Page.isFresh at hfresh
      exact eq_of_beq (Bool.and_eq_true_iff.1 hfresh).2
    refine Or.inr ⟨later, asked, earlier, hhistory, hkeys, ?_, ⟨file.modified, ?_,
      pageTime?_eq_some hlocation hfile⟩, fun unedited => ?_⟩
    · rw [huncached', hgiven, ← hpath, rendered.text]
    · rw [← htime, ← hmodified]
      exact pageTime?_eq_some (hpath ▸ hplace) hold
    · have hhost : (start.after earlier).site.host = now.site.host :=
        (after_site _ _).1.trans (after_site _ _).1.symm
      rw [huncached, hgiven, ← hpath, rendered.again known hbefore hdisk hhost (hpath ▸ hlocation)
        hfile htime unedited]

/-- An engine with its templates in one directory. -/
def rooted : Engine := Engine.ofSettings (({} : Settings).withTemplateRoot "/t")

/-- A page and a component. -/
def folder (page card : String) : Disk where
  files := [(["t", "page.html"], ⟨some page, 1⟩), (["t", "card.html"], ⟨some card, 1⟩)]
  directories := [["t"]]

/-- A site with nothing but a disk. -/
def bare (disk : Disk) : Site := ⟨⟨fun _ _ => none, fun _ _ => false, fun _ _ => none⟩, disk, 0⟩

/-- A request for the page. -/
def front : PageRequest := ⟨"page", "k", none, true, {}⟩

/-- A file is edited after the page was asked for. -/
def editing (name text : String) : History :=
  [.write ["t", name] ⟨some text, 2⟩, .page front]

theorem dataAware_front : front.DataAware fun _ => "page" := ⟨rfl, rfl, by decide, by decide⟩

theorem requests_editing (name text : String) : requestsOf (editing name text) = [front] := rfl

theorem serialized_front : (rooted.environment {} front.extra).serialized = "\x7b\x7d" := by
  have hbindings : (rooted.environment {} front.extra).bindings = [] := rfl
  unfold Variables.serialized Variables.sorted
  rw [hbindings, List.mergeSort_nil]
  decide +kernel

theorem anew_editing {page card name : String} (text : String)
    (h : ∀ old ∈ (folder page card).file? ["t", name], old.modified = 1) :
    (folder page card).EditedAnew (editing name text) := by
  refine ⟨fun state hstate old hold => ?_, trivial⟩
  obtain rfl : state = folder page card := by
    simpa [Disk.states, Disk.after, Action.edit] using hstate
  rw [h old hold]
  exact (by decide : (1 : Int) ≠ 2)

/-- The page is edited: it is given as it is. -/
theorem page_eq_uncached_edited :
    let now := (opened rooted {} (bare (folder "one" ""))).after (editing "page.html" "two")
    .output (now.page front).1 = now.uncached front := by
  intro now
  rcases page_eq_uncached_or_earlier rooted {} (bare (folder "one" "")) (editing "page.html" "two") front
    (fun _ => "page") (by decide) (by decide)
    (by simpa [requests_editing] using dataAware_front) (anew_editing "two" (by decide))
    (by
      simp only [requests_editing, List.map_cons, List.map_nil, serialized_front]
      decide +kernel) with
    hgiven | ⟨later, asked, earlier, hhistory, -, -, ⟨time, hpast, hnow⟩, -⟩
  · exact hgiven
  · -- the page was asked for once before, when its file had another time
    have hearlier : earlier = [] := by
      have hlength := congrArg List.length hhistory
      rcases later with - | ⟨first, later⟩
      · cases hhistory
      · simp only [editing, List.length_cons, List.length_append, List.length_nil] at hlength
        exact List.eq_nil_of_length_eq_zero (by omega)
    subst hearlier
    have htimes : pageTime? rooted.settings (folder "one" "") "page" = some 1 ∧
        pageTime? rooted.settings ((folder "one" "").after (editing "page.html" "two")) "page" =
          some 2 := by
      decide +kernel
    rw [(after_site _ _).2] at hpast hnow
    cases (htimes.1.symm.trans hpast).trans (hnow.symm.trans htimes.2)

end Session

/-- The output of a page that is one component, whose template is a text. -/
theorem Engine.fileOutput_component {engine : Engine} {shared : Shared} {site : Site} {disks : List Disk}
    {texts : List String} (known : Known disks texts) (hdisk : site.disk ∈ disks)
    (hloader : engine.loader = none) (hhooks : engine.hooks = {})
    (hdepth : 0 < engine.settings.security.limits.includeDepth) {path component text : String}
    (hcomponent : Text.cut? ['{', '{'] component.toList = none) {location : Disk.Location}
    {modified : Int} (hlocation : locate engine.settings site.disk path true = .ok location)
    (hpage : parsedFile engine.settings site.disk location =
      .ok (Tree.ofNodes [.component ⟨.direct, component, none, none, []⟩ [] []], modified))
    (hparsed : parsedComponent engine.settings site.disk component =
      .ok (some (Tree.ofNodes [.text text])))
    (extra : Variables) (decisions : Decisions) :
    (engine.fileOutput shared site path extra true decisions).1 = .ok text := by
  have hload : ((engine.renderer shared site).loader.load component
      (Shelf.empty engine.settings.cache)).1 = .ok (some (Tree.ofNodes [.text text])) := by
    have hgives : Shelf.Gives engine.settings disks texts _ _ :=
      Shelf.gives_component known hdisk component
    rw [renderer_load hloader, (hgives _ (Shelf.sound_empty _)).1, hparsed]
  have hhooks' : (engine.renderer shared site).hooks = {} := hhooks
  rw [fileOutput_of_parsed hlocation hpage]
  exact Render.run_component hhooks' hcomponent hdepth hload (engine.environment shared extra)
    engine.vars ⟨decisions, []⟩

/-- Whether an action asks for a page or edits a file. -/
def Action.asksOrEdits : Action → Bool
  | .page _ | .write _ _ | .erase _ => true
  | _ => false

namespace Session

/-- A page with a component. -/
def framing : String := "<Include component=\"card\"/>"

theorem fileOutput_framing {site : Site} {disks : List Disk} {texts : List String}
    (known : Known disks texts) (hdisk : site.disk ∈ disks) {text : String} {modified : Int}
    (hplaces : locate rooted.settings site.disk "page" true = .ok ["t", "page.html"] ∧
      locate rooted.settings site.disk "card" false = .ok ["t", "card.html"])
    (hpage : site.disk.file? ["t", "page.html"] = some ⟨some framing, 1⟩)
    (hcard : site.disk.file? ["t", "card.html"] = some ⟨some text, modified⟩)
    (hcheck : Gate.checkTemplate rooted.settings.security text = .ok ())
    (hscan : scan text = [⟨.text text, 0, 1⟩]) (decisions : Decisions) :
    (rooted.fileOutput {} site front.path front.extra true decisions).1 = .ok text := by
  have htree : Tree.ofSource text = Tree.ofNodes [.text text] := by
    unfold Tree.ofSource
    rw [hscan]
    rfl
  have htree' : Tree.ofSource framing =
      Tree.ofNodes [.component ⟨.direct, "card", none, none, []⟩ [] []] := by
    have hscan' : scan framing =
        [⟨.opening true .includeTag [⟨"component", "card"⟩] framing, 0, 1⟩] := by
      decide +kernel
    unfold Tree.ofSource
    rw [hscan']
    rfl
  have hunopened : Text.cut? ['{', '{'] "card".toList = none := by decide
  refine Engine.fileOutput_component known hdisk rfl rfl (by decide) hunopened hplaces.1
    (htree' ▸ parsedFile_eq_ok hpage (by decide +kernel)) ?_ _ _
  have hname : String.ofList ((Text.trim "card".toList).dropWhile (· == '/')) = "card" := by decide
  unfold parsedComponent
  rw [hname, hplaces.2]
  dsimp only
  rw [parsedFile_eq_ok hcard hcheck, htree]
  rfl

/-- A page is not always given as it is: its component is edited, and it is given as it was. -/
theorem not_page_eq_uncached :
    ¬ ∀ (engine : Engine) (shared : Shared) (site : Site) (history : History) (request : PageRequest)
      (pathOf : String → String), engine.loader = none →
      (shared.globals.Folded ∧ engine.vars.Folded) → (shared.globals.Plain ∧ engine.vars.Plain) →
      (∀ asked ∈ request :: requestsOf history, asked.DataAware pathOf ∧ asked.expiry = none) →
      (∀ action ∈ history, action.asksOrEdits = true) → site.disk.EditedAnew history →
      CollisionFree (site.disk.textsIn history ++ (request :: requestsOf history).map
        fun asked => (engine.environment shared asked.extra).serialized) →
      let now := (opened engine shared site).after history
      .output (now.page request).1 = now.uncached request := by
  intro hclaim
  have anew : (folder framing "v1").EditedAnew (editing "card.html" "v2") :=
    anew_editing "v2" (by decide)
  have digests : CollisionFree ((folder framing "v1").textsIn (editing "card.html" "v2") ++
      (front :: requestsOf (editing "card.html" "v2")).map
        fun asked => (rooted.environment {} asked.extra).serialized) := by
    simp only [requests_editing, List.map_cons, List.map_nil, serialized_front]
    decide +kernel
  have known := anew.known digests (List.subset_append_left ..)
  have hclaimed := hclaim rooted {} (bare (folder framing "v1")) (editing "card.html" "v2") front
    (fun _ => "page") rfl (by decide) (by decide)
    (by simpa [requests_editing] using ⟨dataAware_front, rfl⟩) (by decide) anew digests
  obtain ⟨hdisk, hsound⟩ := past_sound rooted {} (bare (folder framing "v1")) List.nil_suffix known
    (List.subset_append_left ..)
  obtain ⟨hdisk', hsound'⟩ := past_sound rooted {} (bare (folder framing "v1")) (List.suffix_refl _)
    known (List.subset_append_left ..)
  let start := opened rooted {} (bare (folder framing "v1"))
  let now := start.after (editing "card.html" "v2")
  have hplaces : (locate rooted.settings start.site.disk "page" true = .ok ["t", "page.html"] ∧
      locate rooted.settings start.site.disk "card" false = .ok ["t", "card.html"]) ∧
      locate rooted.settings now.site.disk "page" true = .ok ["t", "page.html"] ∧
      locate rooted.settings now.site.disk "card" false = .ok ["t", "card.html"] := by
    decide +kernel
  have hfirst : (start.page front).1 = .ok "v1" := by
    rcases page_reckoned_or_kept (P := fun _ _ => False) known hdisk hsound
      (fun _ hmem => absurd hmem List.not_mem_nil) front with hgiven | ⟨_, _, _, _, _, _, hkept, _⟩
    · exact hgiven.trans (fileOutput_framing known hdisk hplaces.1 rfl rfl (by decide +kernel)
        (by decide +kernel) _)
    · exact hkept.elim
  have hagain : (now.page front).1 = .ok "v1" :=
    Engine.renderCached_again known hdisk hsound.work rfl hplaces.1.1 rfl _ rfl hfirst now.site _ _
      hplaces.2.1 rfl rfl
  have huncached : now.uncached front = .output (.ok "v2") :=
    (uncached_eq front known hdisk' hsound').trans (congrArg Answer.output
      (fileOutput_framing known hdisk' hplaces.2 rfl rfl (by decide +kernel) (by decide +kernel) _))
  change Answer.output (now.page front).1 = now.uncached front at hclaimed
  rw [hagain, huncached] at hclaimed
  exact absurd (Except.ok.inj (Answer.output.inj hclaimed)) (by decide)

end Session

end Stencil
