import Stencil.Proofs.Caching.Shelf
import Stencil.Proofs.Disk.Locations

/-!
What is read from a disk is confined. A location passes the gate only below an allowed root and with an
allowed extension, and a shelf reads at no other location; what stands anywhere else makes no difference to
it.
-/

namespace Stencil

open Disk

/-- A location that templates may be read from: it descends from where an allowed root leads, and its
extension is an allowed one. Points before an allowed extension and the case of letters do not count. -/
structure Gate.Confines (security : Security) (disk : Disk) (location : Location) : Prop where
  below : ∃ root ∈ security.allowedRoots, ∃ top, disk.location? root = some top ∧ top <+: location
  extension : ∃ allowed ∈ security.allowedExtensions, Text.sameLetters
    (allowed.toList.dropWhile (· == '.')) ((extension? location.path).getD "").toList = true

namespace Gate

variable {security : Security} {disk other : Disk} {path : String} {location : Location}

/-- What passes the gate has an allowed extension and leads below an allowed root. -/
theorem of_checkFilePath (h : checkFilePath security disk path = .ok location) :
    allowsExtension security ((extension? path).getD "") = true ∧ disk.location? path = some location ∧
      isBelowRoot security disk location = true := by
  unfold checkFilePath at h
  split at h
  · cases h
  · split at h
    · cases h
    next hallowed =>
      split at h
      · cases h
      · split at h
        next found hfound =>
          cases h
          obtain ⟨hlocation, hbelow⟩ := Option.filter_eq_some_iff.1 hfound
          exact ⟨by simpa using hallowed, hlocation, hbelow⟩
        · cases h

/-- A path to a file that passes the gate leads to a confined location. -/
theorem confines_of_checkFilePath {name : String} (hname : fileName? path = some name)
    (h : checkFilePath security disk path = .ok location) : Confines security disk location := by
  obtain ⟨hextension, hlocation, hbelow⟩ := of_checkFilePath h
  constructor
  · obtain ⟨root, hroot, htop⟩ := List.any_eq_true.1 hbelow
    obtain ⟨top, hsome, htop⟩ := (Option.any_eq_true _ _).1 htop
    exact ⟨root, hroot, top, hsome, List.isPrefixOf_iff_prefix.1 htop⟩
  · rw [extension?_path hlocation hname]
    exact List.any_eq_true.1 hextension

theorem Confines.roots_ne_nil (h : Confines security disk location) : security.allowedRoots ≠ [] := by
  obtain ⟨root, hroot, -⟩ := h.below
  exact List.ne_nil_of_mem hroot

theorem checkFilePath_agreeOn {asked : Location → Prop} (h : disk.AgreeOn asked other) :
    checkFilePath security other path = checkFilePath security disk path := by
  unfold checkFilePath isBelowRoot
  simp only [h.location?]

end Gate

namespace Template

variable {security : Security} {settings : Settings} {disk other : Disk} {path : String}
  {location : Location} {isPage : Bool}

/-- The file that is found is at one of the paths, and its path passes the gate. -/
theorem of_firstFile? {paths : List String} (h : firstFile? security disk paths = .ok (some location)) :
    ∃ path ∈ paths, Gate.checkFilePath security disk path = .ok location := by
  induction paths with
  | nil => cases h
  | cons path rest ih =>
      rw [firstFile?] at h
      cases hcheck : Gate.checkFilePath security disk path with
      | error fault =>
          rw [hcheck] at h
          cases h
      | ok found =>
          rw [hcheck] at h
          change (if (disk.file? found).isSome = true then .ok (some found)
            else firstFile? security disk rest) = _ at h
          split at h
          · cases h
            exact ⟨path, List.mem_cons_self .., hcheck⟩
          · obtain ⟨later, hmem, hlater⟩ := ih h
            exact ⟨later, List.mem_cons_of_mem _ hmem, hlater⟩

/-- The file of a page or of a component is at a confined location. -/
theorem confines_of_locate (h : locate settings disk path isPage = .ok location) :
    Gate.Confines settings.security disk location := by
  unfold locate at h
  dsimp only at h
  cases hfirst : firstFile? settings.security disk (candidates
    (if isPage = true then settings.places.pages else settings.places.components) path) with
  | error fault =>
      rw [hfirst] at h
      cases h
  | ok found =>
      rw [hfirst] at h
      cases found with
      | none => cases h
      | some found =>
          cases h
          obtain ⟨candidate, hmem, hcheck⟩ := of_firstFile? hfirst
          obtain ⟨name, hname⟩ := exists_fileName?_of_mem_candidates hmem
          exact Gate.confines_of_checkFilePath hname hcheck

theorem locate_agreeOn {asked : Location → Prop} (h : disk.AgreeOn asked other) (path : String)
    (isPage : Bool) : locate settings other path isPage = locate settings disk path isPage := by
  have hfirst (paths : List String) :
      firstFile? settings.security other paths = firstFile? settings.security disk paths := by
    induction paths with
    | nil => rfl
    | cons path rest ih =>
        rw [firstFile?, firstFile?, Gate.checkFilePath_agreeOn h, ih]
        simp only [h.present]
  unfold locate
  dsimp only
  rw [hfirst]

namespace Shelf

variable {P : Location → Prop} {shelf first second third : Shelf}

/-- From before to after, files were read only at locations with a property. -/
def ReadsOnly (P : Location → Prop) (before after : Shelf) : Prop :=
  ∃ more, after.reads = more ++ before.reads ∧ ∀ location ∈ more, P location

theorem readsOnly_of_reads_eq (h : second.reads = first.reads) : first.ReadsOnly P second :=
  ⟨[], h, fun _ hmem => absurd hmem List.not_mem_nil⟩

theorem ReadsOnly.trans (h : first.ReadsOnly P second) (h' : second.ReadsOnly P third) :
    first.ReadsOnly P third := by
  obtain ⟨more, hreads, hmore⟩ := h
  obtain ⟨later, hreads', hlater⟩ := h'
  refine ⟨later ++ more, by rw [hreads', hreads, List.append_assoc], fun location hmem => ?_⟩
  exact (List.mem_append.1 hmem).elim (hlater location) (hmore location)

theorem readsOnly_load (h : P location) : shelf.ReadsOnly P (load disk location shelf).2 := by
  have hread : ∀ other ∈ [location], P other := fun other hmem => List.mem_singleton.1 hmem ▸ h
  rw [load_run]
  cases disk.file? location with
  | none => exact readsOnly_of_reads_eq rfl
  | some file =>
      dsimp only
      split
      · exact readsOnly_of_reads_eq rfl
      · cases file.text with
        | none => exact ⟨[location], rfl, hread⟩
        | some text => exact ⟨[location], rfl, hread⟩

theorem reads_compile (source : String) : (compile settings source shelf).2.reads = shelf.reads := by
  rw [compile_run]
  dsimp only
  split
  · rfl
  · split
    · rfl
    · rfl

theorem readsOnly_treeOfFile (settings : Settings) (disk : Disk) (shelf : Shelf) (h : P location) :
    shelf.ReadsOnly P (treeOfFile settings disk location shelf).2 := by
  have hload : shelf.ReadsOnly P (load disk location shelf).2 := readsOnly_load h
  rw [treeOfFile_run]
  rcases hrun : load disk location shelf with ⟨fault | loaded, after⟩
  · rw [hrun] at hload
    exact hload
  · rw [hrun] at hload
    have hcompiled (trees : Cache Key Markup.Tree) : shelf.ReadsOnly P
        (compile settings loaded.source.text { after with trees }).2 :=
      hload.trans (readsOnly_of_reads_eq (reads_compile _))
    dsimp only
    split
    next hcompile => exact (congrArg Prod.snd hcompile) ▸ hcompiled _
    next hcompile => exact (congrArg Prod.snd hcompile) ▸ hcompiled _

/-- The loader of component files reads at confined locations alone. -/
theorem readsOnly_component (path : String) :
    shelf.ReadsOnly (Gate.Confines settings.security disk) (component? settings disk path shelf).2 := by
  unfold component?
  rcases hlocate : locate settings disk
    (String.ofList ((Text.trim path.toList).dropWhile (· == '/'))) false with fault | location
  · cases fault with
    | templateNotFound => exact readsOnly_of_reads_eq rfl
    | _ => exact readsOnly_of_reads_eq rfl
  · have htree : shelf.ReadsOnly (Gate.Confines settings.security disk)
        (treeOfFile settings disk location shelf).2 :=
      readsOnly_treeOfFile settings disk shelf (confines_of_locate hlocate)
    dsimp only
    rw [run_bind]
    split
    next found after hrun => exact (congrArg Prod.snd hrun) ▸ htree
    next fault after hrun => exact (congrArg Prod.snd hrun) ▸ htree

theorem treeOfFile_agreeOn (h : disk.AgreeOn P other) (hlocation : P location) :
    treeOfFile settings other location = treeOfFile settings disk location := by
  unfold treeOfFile load
  rw [h.same location hlocation]

/-- What stands anywhere but at confined locations makes no difference to the loader. -/
theorem component?_agreeOn (h : disk.AgreeOn (Gate.Confines settings.security disk) other)
    (path : String) : component? settings other path = component? settings disk path := by
  unfold component?
  dsimp only
  rw [locate_agreeOn h]
  split
  next location hlocate =>
    rw [treeOfFile_agreeOn h (confines_of_locate hlocate)]
  · rfl
  · rfl

end Shelf

end Template

end Stencil
