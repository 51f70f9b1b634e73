import Stencil.Template.Shelf

/-!
What a shelf has at hand is what reading and parsing again would give. A text at hand is the text of its
file as some disk had it at that time, and a tree at hand is the tree of an accepted text. As long as a
time of last change tells the contents of a file and no two texts share a digest, every answer of the shelf
is that of an empty one. Nothing that is dropped, by an eviction or as stale, plays a part.
-/

namespace Stencil

/-- What a cache keeps has a property. -/
def Cache.Holds {κ α : Type} (P : κ → α → Prop) (cache : Cache κ α) : Prop :=
  ∀ entry ∈ cache.entries, P entry.key entry.value

section Steps

variable {σ α β : Type}

theorem run_get_bind (next : σ → ExceptT Fault (StateM σ) α) (state : σ) :
    (get >>= next) state = next state state := rfl

theorem run_bind (step : ExceptT Fault (StateM σ) α) (next : α → ExceptT Fault (StateM σ) β)
    (state : σ) :
    (step >>= next) state =
      match step state with
      | (.ok value, after) => next value after
      | (.error fault, after) => (.error fault, after) := by
  change (ExceptT.bindCont next (step state).1 : StateM σ (Except Fault β)) (step state).2 = _
  rcases step state with ⟨_ | _, after⟩
  · rfl
  · rfl

theorem run_liftExcept (result : Except Fault α) (state : σ) :
    (liftExcept result : ExceptT Fault (StateM σ) α) state = (result, state) := by
  cases result with
  | error fault => rfl
  | ok value => rfl

end Steps

namespace Cache

variable {κ α : Type} [BEq κ] {P : κ → α → Prop} {cache : Cache κ α}

theorem holds_erase (h : cache.Holds P) (key : κ) : (cache.erase key).Holds P :=
  fun entry hmem => h entry (List.mem_filter.1 hmem).1

omit [BEq κ] in
theorem holds_filterKeys_kept (keep : κ → Bool)
    (h : cache.Holds fun key value => keep key = true → P key value) :
    (cache.filterKeys keep).2.Holds P :=
  fun entry hmem => h entry (List.mem_filter.1 hmem).1 (List.mem_filter.1 hmem).2

omit [BEq κ] in
theorem holds_filterKeys (h : cache.Holds P) (keep : κ → Bool) : (cache.filterKeys keep).2.Holds P :=
  holds_filterKeys_kept keep fun entry hmem _ => h entry hmem

omit [BEq κ] in
theorem holds_clear : cache.clear.Holds P := fun _ hmem => absurd hmem List.not_mem_nil

/-- A value that is found was kept under its key, and finding it changes only when it was accessed. -/
theorem holds_lookupIf [LawfulBEq κ] (h : cache.Holds P) (accept : α → Bool) (key : κ) :
    (∀ value ∈ (cache.lookupIf accept key).1, accept value = true ∧ P key value) ∧
      (cache.lookupIf accept key).2.Holds P := by
  unfold lookupIf
  dsimp only
  split
  next => exact ⟨fun _ hmem => (nomatch hmem), h⟩
  next entry hfound =>
    replace hfound : List.find? (·.key == key) cache.entries = some entry := hfound
    split
    next haccept =>
      constructor
      · intro value hvalue
        obtain rfl := Option.some.inj hvalue
        have hkey : entry.key = key := by simpa using List.find?_some hfound
        exact ⟨haccept, hkey ▸ h entry (List.mem_of_find?_eq_some hfound)⟩
      · intro found hmem
        obtain ⟨kept, hkept, rfl⟩ := List.mem_map.1 hmem
        have := h kept hkept
        split
        · exact this
        · exact this
    next => exact ⟨fun _ hmem => (nomatch hmem), holds_erase h key⟩

/-- A look that finds nothing leaves no entry that was not there. -/
theorem lookupIf_entries {accept : α → Bool} {key : κ} (h : (cache.lookupIf accept key).1 = none) :
    (cache.lookupIf accept key).2.entries ⊆ cache.entries := by
  unfold lookupIf at h ⊢
  dsimp only at h ⊢
  split
  next => exact List.Subset.refl _
  next entry hfound =>
    rw [hfound] at h
    dsimp only at h
    split
    next haccepted =>
      rw [if_pos haccepted] at h
      cases h
    next => exact fun _ hmem => (List.mem_filter.1 hmem).1

omit [BEq κ] in
theorem mem_of_mem_dropOldest {count : Nat} {entries : List (Entry κ α)} {entry : Entry κ α}
    (h : entry ∈ dropOldest count entries) : entry ∈ entries :=
  List.mem_mergeSort.1 (List.mem_of_mem_drop h)

theorem holds_erase_others [LawfulBEq κ] {key : κ}
    (h : cache.Holds fun other value => other ≠ key → P other value) : (cache.erase key).Holds P := by
  intro entry hmem
  obtain ⟨hkept, hother⟩ := List.mem_filter.1 hmem
  exact h entry hkept (by simpa using hother)

/-- What holds of the new value and of what is kept under other keys holds after an insertion. -/
theorem holds_insert_others [LawfulBEq κ] {key : κ} {value : α}
    (h : cache.Holds fun other value => other ≠ key → P other value) (hnew : P key value) :
    (cache.insert key value).Holds P := by
  have hentries : ∀ entry ∈ (⟨key, value, cache.clock + 1⟩ : Entry κ α) :: (cache.erase key).entries,
      P entry.key entry.value :=
    List.forall_mem_cons.2 ⟨hnew, holds_erase_others h⟩
  unfold insert
  dsimp only
  split
  · exact hentries
  · exact fun entry hmem => hentries entry (mem_of_mem_dropOldest hmem)

theorem holds_insert [LawfulBEq κ] (h : cache.Holds P) {key : κ} {value : α} (hnew : P key value) :
    (cache.insert key value).Holds P :=
  holds_insert_others (fun entry hmem _ => h entry hmem) hnew

/-- A value that was inserted is found, if there was room and it is accepted. -/
theorem lookupIf_insert [LawfulBEq κ] {accept : α → Bool} {key : κ} {value : α}
    (hroom : cache.size < max cache.capacity 1) (haccept : accept value = true) :
    ((cache.insert key value).lookupIf accept key).1 = some value := by
  have hfits : (⟨key, value, cache.clock + 1⟩ :: (cache.erase key).entries : List (Entry κ α)).length ≤
      max cache.capacity 1 :=
    Nat.le_trans (Nat.succ_le_succ (List.length_filter_le ..)) hroom
  unfold insert
  dsimp only
  rw [if_pos hfits]
  unfold lookupIf find?
  dsimp only
  rw [List.find?_cons_of_pos (by simp)]
  dsimp only
  rw [if_pos haccept]

end Cache

/-- The texts of the files of a disk. -/
def Disk.texts (disk : Disk) : List String := disk.files.filterMap fun entry => entry.2.text

theorem Disk.mem_texts {disk : Disk} {location : Disk.Location} {text : String} {modified : Int}
    (h : disk.file? location = some ⟨some text, modified⟩) : text ∈ disk.texts := by
  obtain ⟨before, after, hfiles, -⟩ := List.lookup_eq_some_iff.1 h
  refine List.mem_filterMap.2 ⟨(location, ⟨some text, modified⟩), ?_, rfl⟩
  rw [hfiles]
  exact List.mem_append_right _ (List.mem_cons_self ..)

namespace Template

open Markup Disk

/-- No two texts of a list have one digest. -/
def CollisionFree (texts : List String) : Prop :=
  ∀ text ∈ texts, ∀ text' ∈ texts, Digest.sha256Hex text = Digest.sha256Hex text' → text = text'

instance (texts : List String) : Decidable (CollisionFree texts) :=
  inferInstanceAs (Decidable (∀ text ∈ texts, ∀ text' ∈ texts,
    Digest.sha256Hex text = Digest.sha256Hex text' → text = text'))

/-- A time of last change tells what a file holds, on all disks of a list. -/
def Dated (disks : List Disk) : Prop :=
  ∀ disk ∈ disks, ∀ disk' ∈ disks, ∀ location, ∀ file ∈ disk.file? location,
    ∀ file' ∈ disk'.file? location, file.modified = file'.modified → file = file'

/-- Disks whose files are told apart by their times, and texts that are told apart by their digests,
among them those of the files. -/
structure Known (disks : List Disk) (texts : List String) : Prop where
  dated : Dated disks
  digests : CollisionFree texts
  files : ∀ disk ∈ disks, disk.texts ⊆ texts

theorem Known.mono {disks disks' : List Disk} {texts : List String} (known : Known disks texts)
    (hsub : disks' ⊆ disks) : Known disks' texts where
  dated := fun disk hdisk disk' hdisk' => known.dated disk (hsub hdisk) disk' (hsub hdisk')
  digests := known.digests
  files := fun disk hdisk => known.files disk (hsub hdisk)

/-- Texts that are told apart by their digests are told apart by their keys. -/
theorem Key.of_injective {texts : List String} (digests : CollisionFree texts) {text text' : String}
    (htext : text ∈ texts) (htext' : text' ∈ texts) {threshold : Nat}
    (h : Key.of text threshold = Key.of text' threshold) : text = text' := by
  unfold Key.of at h
  split at h
  · split at h
    · exact Key.literal.inj h
    · cases h
  · split at h
    · cases h
    · exact digests text htext text' htext' (Key.digest.inj h)

/-- The text of a file, read from the disk. -/
def readSource (disk : Disk) (location : Location) : Except Fault Source :=
  match disk.file? location with
  | none => .error (.file .missing)
  | some ⟨none, _⟩ => .error (.file .invalidText)
  | some ⟨some text, modified⟩ => .ok ⟨location, text, modified⟩

theorem file?_of_readSource {disk : Disk} {location : Location} {source : Source}
    (h : readSource disk location = .ok source) :
    disk.file? location = some ⟨some source.text, source.modified⟩ := by
  unfold readSource at h
  split at h
  · cases h
  · cases h
  next hfile =>
    obtain rfl := Except.ok.inj h
    exact hfile

/-- The key and the tree of a template that the gate lets through. -/
def parsed (settings : Settings) (source : String) : Except Fault (Key × Tree) := do
  Gate.checkTemplate settings.security source
  return (Key.of source settings.cache.literalKey, Tree.ofSource source)

theorem parsed_eq_ok_iff {settings : Settings} {source : String} {key : Key} {tree : Tree} :
    parsed settings source = .ok (key, tree) ↔
      Gate.checkTemplate settings.security source = .ok () ∧
        key = Key.of source settings.cache.literalKey ∧ tree = Tree.ofSource source := by
  unfold parsed
  cases Gate.checkTemplate settings.security source with
  | error fault => exact ⟨fun h => (nomatch h), fun h => (nomatch h.1)⟩
  | ok =>
      constructor
      · intro h
        cases h
        exact ⟨rfl, rfl, rfl⟩
      · rintro ⟨-, rfl, rfl⟩
        rfl

/-- The tree of a file and the time of the file's last change, read and parsed again. -/
def parsedFile (settings : Settings) (disk : Disk) (location : Location) : Except Fault (Tree × Int) := do
  let source ← readSource disk location
  let (_, tree) ← parsed settings source.text
  return (tree, source.modified)

theorem parsedFile_congr (settings : Settings) {disk disk' : Disk} {location : Location}
    (h : disk.file? location = disk'.file? location) :
    parsedFile settings disk location = parsedFile settings disk' location := by
  unfold parsedFile readSource
  rw [h]

theorem parsedFile_eq_ok {settings : Settings} {disk : Disk} {location : Location}
    {text : String} {modified : Int} (hfile : disk.file? location = some ⟨some text, modified⟩)
    (hcheck : Gate.checkTemplate settings.security text = .ok ()) :
    parsedFile settings disk location = .ok (Tree.ofSource text, modified) := by
  have hparsed := parsed_eq_ok_iff.2 ⟨hcheck, rfl, rfl⟩
  unfold parsedFile readSource
  rw [hfile]
  change (parsed settings text >>= fun found => .ok (found.2, modified)) = _
  rw [hparsed]
  rfl

theorem file?_of_parsedFile {settings : Settings} {disk : Disk} {location : Location} {tree : Tree}
    {modified : Int} (h : parsedFile settings disk location = .ok (tree, modified)) :
    ∃ file, disk.file? location = some file ∧ file.modified = modified := by
  unfold parsedFile at h
  cases hread : readSource disk location with
  | error fault =>
      rw [hread] at h
      cases h
  | ok source =>
      rw [hread] at h
      refine ⟨_, file?_of_readSource hread, ?_⟩
      change (parsed settings source.text >>= fun found => .ok (found.2, source.modified)) = _ at h
      cases hparsed : parsed settings source.text with
      | error fault =>
          rw [hparsed] at h
          cases h
      | ok found =>
          rw [hparsed] at h
          cases h
          rfl

/-- The tree of a component's file, read and parsed again. -/
def parsedComponent (settings : Settings) (disk : Disk) (path : String) :
    Except Fault (Option Tree) :=
  match locate settings disk (String.ofList ((Text.trim path.toList).dropWhile (· == '/'))) false with
  | .ok location => (parsedFile settings disk location).map fun found => some found.1
  | .error (.templateNotFound _) => .ok none
  | .error fault => .error fault

/-- What is at hand comes from the disks and from accepted texts. -/
structure Shelf.Sound (settings : Settings) (disks : List Disk) (texts : List String) (shelf : Shelf) :
    Prop where
  sources : ∀ source ∈ shelf.sources, ∃ disk ∈ disks,
    disk.file? source.location = some ⟨some source.text, source.modified⟩
  trees : shelf.trees.Holds fun key tree => ∃ text ∈ texts, parsed settings text = .ok (key, tree)

namespace Shelf

variable {settings : Settings} {disks : List Disk} {texts : List String} {shelf : Shelf} {α β : Type}

theorem sound_empty (sizes : CacheSizes) : (Shelf.empty sizes).Sound settings disks texts :=
  ⟨fun _ hmem => absurd hmem List.not_mem_nil, fun _ hmem => absurd hmem List.not_mem_nil⟩

theorem sound_clear : shelf.clear.Sound settings disks texts :=
  ⟨fun _ hmem => absurd hmem List.not_mem_nil, Cache.holds_clear⟩

theorem Sound.mono (h : shelf.Sound settings disks texts) {disks' : List Disk}
    (hsub : disks ⊆ disks') : shelf.Sound settings disks' texts := by
  refine ⟨fun source hmem => ?_, h.trees⟩
  obtain ⟨disk, hdisk, hfile⟩ := h.sources source hmem
  exact ⟨disk, hsub hdisk, hfile⟩

/-- A step that gives the same whatever is at hand, as long as it is sound, and leaves it sound. -/
def Gives (settings : Settings) (disks : List Disk) (texts : List String) (expected : Except Fault α)
    (step : Shelving α) : Prop :=
  ∀ shelf : Shelf, shelf.Sound settings disks texts →
    (step shelf).1 = expected ∧ (step shelf).2.Sound settings disks texts

theorem gives_pure (value : α) : Gives settings disks texts (.ok value) (pure value) :=
  fun _ h => ⟨rfl, h⟩

theorem gives_throw (fault : Fault) :
    Gives settings disks texts (.error fault : Except Fault α) (throw fault) :=
  fun _ h => ⟨rfl, h⟩

theorem Gives.bind {expected : Except Fault α} {step : Shelving α} {rest : α → Except Fault β}
    {next : α → Shelving β} (h : Gives settings disks texts expected step)
    (hnext : ∀ value, expected = .ok value → Gives settings disks texts (rest value) (next value)) :
    Gives settings disks texts (expected >>= rest) (step >>= next) := by
  intro shelf hsound
  obtain ⟨hanswer, hafter⟩ := h shelf hsound
  rw [run_bind]
  rcases hrun : step shelf with ⟨fault | value, after⟩
  · rw [hrun] at hanswer hafter
    subst hanswer
    exact ⟨rfl, hafter⟩
  · rw [hrun] at hanswer hafter
    subst hanswer
    exact hnext value rfl after hafter

section Steps

variable (known : Known disks texts) {disk : Disk} (hdisk : disk ∈ disks)

include known hdisk

omit known hdisk in
theorem load_run (location : Location) :
    load disk location shelf =
      match disk.file? location with
      | none => (.error (.file .missing), shelf)
      | some file =>
          let known := shelf.sources.find? (·.location == location)
          match known.filter (·.modified == file.modified) with
          | some source =>
              (.ok ⟨source, none⟩,
                { shelf with counters := { shelf.counters with hits := shelf.counters.hits + 1 } })
          | none =>
              let miss := { shelf with
                counters := { shelf.counters with misses := shelf.counters.misses + 1 }
                reads := location :: shelf.reads }
              match file.text with
              | none => (.error (.file .invalidText), miss)
              | some text =>
                  (.ok ⟨⟨location, text, file.modified⟩, known.map Source.text⟩,
                    { miss with
                      sources := ⟨location, text, file.modified⟩ ::
                        miss.sources.filter (·.location != location) }) := by
  unfold load
  rcases disk.file? location with - | ⟨text, modified⟩
  · rfl
  · dsimp only
    rw [run_get_bind]
    cases (shelf.sources.find? (·.location == location)).filter (·.modified == modified) with
    | none =>
        cases text with
        | none => rfl
        | some text => rfl
    | some source => rfl

theorem load_sound (location : Location) (h : shelf.Sound settings disks texts) :
    (load disk location shelf).1.map Loaded.source = readSource disk location ∧
      (load disk location shelf).2.Sound settings disks texts := by
  rw [load_run]
  unfold readSource
  rcases hfile : disk.file? location with - | ⟨text, modified⟩
  · exact ⟨rfl, h⟩
  · dsimp only
    split
    next source hsource =>
      obtain ⟨hfound, hmodified⟩ := Option.filter_eq_some_iff.1 hsource
      have hlocation : source.location = location := by simpa using List.find?_some hfound
      have htime : source.modified = modified := by simpa using hmodified
      obtain ⟨disk', hdisk', hfile'⟩ := h.sources source (List.mem_of_find?_eq_some hfound)
      have hsame : (⟨some source.text, source.modified⟩ : File) = ⟨text, modified⟩ :=
        known.dated disk' hdisk' disk hdisk location _ (hlocation ▸ hfile') _ hfile htime
      obtain rfl : some source.text = text := congrArg File.text hsame
      subst hlocation htime
      exact ⟨rfl, h.sources, h.trees⟩
    next =>
      cases text with
      | none => exact ⟨rfl, h.sources, h.trees⟩
      | some text =>
          refine ⟨rfl, fun source hmem => ?_, h.trees⟩
          rcases List.mem_cons.1 hmem with rfl | hmem
          · exact ⟨disk, hdisk, hfile⟩
          · exact h.sources source (List.mem_filter.1 hmem).1

omit known hdisk in
theorem compile_run (source : String) :
    compile settings source shelf =
      let key := Key.of source settings.cache.literalKey
      match shelf.trees.lookup key with
      | (some tree, trees) => (.ok (key, tree), { shelf with trees })
      | (none, trees) =>
          match Gate.checkTemplate settings.security source with
          | .error fault => (.error fault, { shelf with trees })
          | .ok () =>
              (.ok (key, Tree.ofSource source),
                { shelf with trees := trees.insert key (Tree.ofSource source) }) := by
  unfold compile
  dsimp only
  rw [run_get_bind]
  rcases shelf.trees.lookup (Key.of source settings.cache.literalKey) with ⟨- | tree, trees⟩
  · cases Gate.checkTemplate settings.security source with
    | error fault => rfl
    | ok => rfl
  · rfl

omit known hdisk in
theorem treeOfFile_run (location : Location) :
    treeOfFile settings disk location shelf =
      match load disk location shelf with
      | (.error fault, after) => (.error fault, after)
      | (.ok loaded, after) =>
          let trees := loaded.stale.elim after.trees fun stale =>
            after.trees.erase (Key.of stale settings.cache.literalKey)
          match compile settings loaded.source.text { after with trees } with
          | (.error fault, last) => (.error fault, last)
          | (.ok found, last) => (.ok (found.2, loaded.source.modified), last) := by
  have hcompiled (loaded : Loaded) (after : Shelf) :
      ((do
        let (_, tree) ← compile settings loaded.source.text
        return (tree, loaded.source.modified) : Shelving (Tree × Int)) after) =
        match compile settings loaded.source.text after with
        | (.error fault, last) => (.error fault, last)
        | (.ok found, last) => (.ok (found.2, loaded.source.modified), last) := by
    rw [run_bind]
    rcases compile settings loaded.source.text after with ⟨fault | found, last⟩
    · rfl
    · rfl
  unfold treeOfFile
  rw [run_bind]
  rcases load disk location shelf with ⟨fault | loaded, after⟩
  · rfl
  · rcases hstale : loaded.stale with - | stale
    · dsimp only
      rw [hstale]
      exact hcompiled loaded after
    · dsimp only
      rw [hstale]
      exact hcompiled loaded { after with trees := after.trees.erase _ }

omit known hdisk in
/-- A text that is given is given with the time of last change that its file has. -/
theorem file?_of_load {location : Location} {loaded : Loaded}
    (h : (load disk location shelf).1 = .ok loaded) :
    ∃ file, disk.file? location = some file ∧ file.modified = loaded.source.modified := by
  rw [load_run] at h
  rcases hfile : disk.file? location with - | ⟨text, modified⟩
  · rw [hfile] at h
    cases h
  · refine ⟨⟨text, modified⟩, rfl, ?_⟩
    rw [hfile] at h
    dsimp only at h
    rcases hknown : (shelf.sources.find? (·.location == location)).filter (·.modified == modified)
      with - | source
    · rw [hknown] at h
      cases text with
      | none => cases h
      | some text =>
          cases h
          rfl
    · rw [hknown] at h
      cases h
      exact (eq_of_beq (Option.filter_eq_some_iff.1 hknown).2).symm

omit known hdisk in
theorem file?_of_treeOfFile {location : Location} {tree : Tree} {modified : Int}
    (h : (treeOfFile settings disk location shelf).1 = .ok (tree, modified)) :
    ∃ file, disk.file? location = some file ∧ file.modified = modified := by
  rw [treeOfFile_run] at h
  rcases hload : load disk location shelf with ⟨fault | loaded, after⟩
  · rw [hload] at h
    cases h
  · obtain ⟨file, hfile, hmodified⟩ := file?_of_load (congrArg Prod.fst hload)
    rw [hload] at h
    dsimp only at h
    split at h
    · cases h
    · cases h
      exact ⟨file, hfile, hmodified⟩

omit hdisk in
/-- A tree at hand is the one of its text, although the gate did not look at the text again. -/
theorem gives_compile {source : String} (hsource : source ∈ texts) :
    Gives settings disks texts (parsed settings source) (compile settings source) := by
  intro shelf h
  obtain ⟨hfound, htrees⟩ := Cache.holds_lookupIf h.trees (fun _ => true)
    (Key.of source settings.cache.literalKey)
  rw [compile_run]
  unfold Cache.lookup
  dsimp only
  split
  next tree trees hlookup =>
    rw [hlookup] at hfound htrees
    obtain ⟨-, text, htext, hparsed⟩ := hfound tree rfl
    obtain rfl := Key.of_injective known.digests hsource htext (parsed_eq_ok_iff.1 hparsed).2.1
    exact ⟨hparsed.symm, h.sources, htrees⟩
  next trees hlookup =>
    rw [hlookup] at htrees
    unfold parsed
    cases hcheck : Gate.checkTemplate settings.security source with
    | error fault => exact ⟨rfl, h.sources, htrees⟩
    | ok =>
        refine ⟨rfl, h.sources, Cache.holds_insert htrees ⟨source, hsource, ?_⟩⟩
        exact parsed_eq_ok_iff.2 ⟨hcheck, rfl, rfl⟩

theorem gives_treeOfFile (location : Location) :
    Gives settings disks texts (parsedFile settings disk location)
      (treeOfFile settings disk location) := by
  intro shelf h
  obtain ⟨hread, hloaded⟩ := load_sound known hdisk location h
  unfold treeOfFile parsedFile
  rw [run_bind, ← hread]
  rcases hload : load disk location shelf with ⟨fault | loaded, after⟩
  · rw [hload] at hloaded
    exact ⟨rfl, hloaded⟩
  · rw [hload] at hread hloaded
    have htext : loaded.source.text ∈ texts :=
      known.files disk hdisk (Disk.mem_texts (file?_of_readSource hread.symm))
    have hparse : Gives settings disks texts (parsed settings loaded.source.text)
        (compile settings loaded.source.text) := gives_compile known htext
    have hcompile := hparse.bind fun found _ =>
      gives_pure (found.2, loaded.source.modified)
    -- whether or not a stale tree is put away first
    rcases hstale : loaded.stale with - | stale
    · dsimp only
      rw [hstale]
      exact hcompile after hloaded
    · dsimp only
      rw [hstale]
      exact hcompile { after with trees := after.trees.erase _ }
        ⟨hloaded.sources, Cache.holds_erase hloaded.trees _⟩

theorem gives_component (path : String) :
    Gives settings disks texts (parsedComponent settings disk path)
      (component? settings disk path) := by
  unfold component? parsedComponent
  dsimp only
  rcases locate settings disk (String.ofList ((Text.trim path.toList).dropWhile (· == '/'))) false with
    fault | location
  · cases fault with
    | templateNotFound => exact gives_pure none
    | _ => exact gives_throw _
  · exact (gives_treeOfFile known hdisk location).bind fun found _ => gives_pure _

end Steps

end Shelf

end Template

end Stencil
