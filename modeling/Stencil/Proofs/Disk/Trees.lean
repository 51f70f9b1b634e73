import Mathlib.Data.List.Induction
import Stencil.Disk.Basic

/-!
Disks as trees. What is on a disk lies in directories, all the way up, and no place is a file and a directory. Every
change of a disk keeps this as long as no file stands in its way. Names that lead nowhere upwards then lead to
where they say: they are followed if something is there, and a file is at a path exactly if one is at its location
and the path does not ask for a directory.
-/

namespace Stencil.Disk

variable {disk : Disk} {start location : Location} {names : List String} {name path : String}

/-- Whether there is a directory or a file at a location. -/
def isTaken (disk : Disk) (location : Location) : Bool :=
  disk.isDirectory location || (disk.file? location).isSome

/-- A disk whose directories form a tree with the files at its leaves. Work is done in one of the
directories. -/
structure IsTree (disk : Disk) : Prop where
  above : ∀ location name, disk.isTaken (location ++ [name]) = true → disk.isDirectory location = true
  apart : ∀ location, (disk.file? location).isSome = true → disk.isDirectory location = false
  working : disk.isDirectory disk.workingDirectory = true
  settled : ".." ∉ disk.workingDirectory

theorem file?_isSome_iff : (disk.file? location).isSome = true ↔ location ∈ disk.files.map (·.1) := by
  rw [file?, List.lookup_isSome_iff, List.mem_map]
  refine exists_congr fun entry => and_congr_right fun _ => ?_
  rw [beq_iff_eq]
  exact eq_comm

/-- Whether a disk is a tree shows at the places it lists. -/
theorem isTree_iff : disk.IsTree ↔
    (∀ location ∈ disk.directories ++ disk.files.map (·.1), disk.isDirectory location.dropLast = true) ∧
    (∀ location ∈ disk.files.map (·.1), disk.isDirectory location = false) ∧
    disk.isDirectory disk.workingDirectory = true ∧ ".." ∉ disk.workingDirectory := by
  have htaken (location : Location) : disk.isTaken location = true ↔
      location = [] ∨ location ∈ disk.directories ++ disk.files.map (·.1) := by
    rw [isTaken, Bool.or_eq_true, file?_isSome_iff, isDirectory, List.mem_append]
    simp [or_assoc]
  constructor
  · rintro ⟨habove, hapart, hworking, hsettled⟩
    refine ⟨fun location hmem => ?_, fun location hmem => ?_, hworking, hsettled⟩
    · cases location using List.reverseRecOn with
      | nil => rfl
      | append_singleton front name =>
          rw [List.dropLast_concat]
          exact habove front name ((htaken _).2 (.inr hmem))
    · exact hapart location (file?_isSome_iff.2 hmem)
  · rintro ⟨habove, hapart, hworking, hsettled⟩
    refine ⟨fun location name h => ?_, fun location h => ?_, hworking, hsettled⟩
    · rcases (htaken _).1 h with hnil | hmem
      · exact absurd hnil (by simp)
      · have hdirectory := habove _ hmem
        rwa [List.dropLast_concat] at hdirectory
    · exact hapart location (file?_isSome_iff.1 h)

instance : Decidable disk.IsTree := decidable_of_iff _ isTree_iff.symm

section Changes

variable {file : File}

theorem mem_pathTo_iff {above : Location} : above ∈ pathTo location ↔ above <+: location := by
  induction location generalizing above with
  | nil => rw [pathTo, List.mem_singleton, List.prefix_nil]
  | cons first rest ih =>
      rw [pathTo, List.mem_cons, List.mem_map]
      cases above with
      | nil => simp
      | cons name names =>
          rw [List.cons_prefix_cons, ← ih]
          simp [eq_comm, and_comm]

theorem isDirectory_createDirectory_iff {above : Location} :
    (disk.createDirectory location).isDirectory above = true ↔
      disk.isDirectory above = true ∨ above <+: location := by
  have hdirectory : (disk.createDirectory location).isDirectory above = true ↔
      disk.isDirectory above = true ∨ above ∈ (pathTo location).filter (!disk.isDirectory ·) := by
    simp [isDirectory, createDirectory, or_assoc]
  rw [hdirectory, List.mem_filter, mem_pathTo_iff]
  cases disk.isDirectory above <;> simp

theorem file?_write_isSome_iff {other : Location} :
    ((disk.write location file).file? other).isSome = true ↔
      other = location ∨ (disk.file? other).isSome = true := by
  rw [file?_isSome_iff, file?_isSome_iff]
  by_cases hother : other = location <;> simp [write, createDirectory, hother]

/-- Directories can be made where no file is in their way. -/
theorem IsTree.createDirectory (tree : disk.IsTree)
    (hfree : ∀ above, above <+: location → (disk.file? above).isSome = false) :
    (disk.createDirectory location).IsTree := by
  constructor
  · intro above name h
    rw [isDirectory_createDirectory_iff]
    rw [isTaken, Bool.or_eq_true, isDirectory_createDirectory_iff] at h
    have hold (htaken : disk.isTaken (above ++ [name]) = true) := tree.above above name htaken
    rcases h with (hdirectory | hprefix) | hfile
    · exact .inl (hold (by rw [isTaken, hdirectory, Bool.true_or]))
    · exact .inr ((List.prefix_append ..).trans hprefix)
    · exact .inl (hold (by rw [isTaken, Bool.or_eq_true]; exact .inr hfile))
  · intro above hfile
    rw [Bool.eq_false_iff, Ne, isDirectory_createDirectory_iff, not_or]
    constructor
    · exact Bool.eq_false_iff.1 (tree.apart above hfile)
    · intro hprefix
      have hmissing : ((disk.createDirectory location).file? above).isSome = false := hfree above hprefix
      rw [hfile] at hmissing
      cases hmissing
  · exact isDirectory_createDirectory_iff.2 (.inl tree.working)
  · exact tree.settled

/-- A file can be written where no directory is and no file is in the way. -/
theorem IsTree.write (tree : disk.IsTree) (hplace : disk.isDirectory location = false)
    (hfree : ∀ above, above <+: location.dropLast → (disk.file? above).isSome = false) :
    (disk.write location file).IsTree := by
  have hmade := tree.createDirectory hfree
  have hne : location ≠ [] := by
    rintro rfl
    cases hplace
  have hdirectory (other : Location) : (disk.write location file).isDirectory other =
      (disk.createDirectory location.dropLast).isDirectory other := rfl
  constructor
  · intro above name h
    rw [isTaken, Bool.or_eq_true, file?_write_isSome_iff] at h
    rw [hdirectory] at h ⊢
    rcases h with hinner | heq | hfile
    · exact hmade.above above name (by rw [isTaken, hinner, Bool.true_or])
    · rw [isDirectory_createDirectory_iff, ← heq, List.dropLast_concat]
      exact .inr (List.prefix_refl above)
    · exact hmade.above above name (by rw [isTaken, Bool.or_eq_true]; exact .inr hfile)
  · intro other h
    rw [hdirectory]
    rcases file?_write_isSome_iff.1 h with rfl | hfile
    · rw [Bool.eq_false_iff, Ne, isDirectory_createDirectory_iff, hplace]
      rintro (hdirectory | hprefix)
      · cases hdirectory
      · have hlength := hprefix.length_le
        have hpos := List.length_pos_iff.2 hne
        rw [List.length_dropLast] at hlength
        omega
    · exact hmade.apart other hfile
  · exact hmade.working
  · exact hmade.settled

/-- A file can be erased anywhere. -/
theorem IsTree.erase (tree : disk.IsTree) : (disk.erase location).IsTree := by
  have hfile {other : Location} (h : ((disk.erase location).file? other).isSome = true) :
      (disk.file? other).isSome = true := by
    rw [file?_isSome_iff] at h ⊢
    exact List.map_subset _ List.filter_sublist.subset h
  constructor
  · intro above name h
    rw [isTaken, Bool.or_eq_true] at h
    apply tree.above above name
    rw [isTaken, Bool.or_eq_true]
    exact h.imp_right hfile
  · exact fun other h => tree.apart other (hfile h)
  · exact tree.working
  · exact tree.settled

end Changes

theorem IsTree.isDirectory_of_isTaken (tree : disk.IsTree) (h : disk.isTaken (location ++ name :: names) = true) :
    disk.isDirectory location = true := by
  induction names using List.reverseRecOn generalizing name with
  | nil => exact tree.above location name h
  | append_singleton front last ih =>
      have hinner : disk.isDirectory (location ++ name :: front) = true := by
        apply tree.above _ last
        rw [List.append_assoc]
        exact h
      apply ih
      rw [isTaken, hinner]
      rfl

/-- Names that lead nowhere upwards lead to where they say. -/
theorem eq_of_walk? (hup : ".." ∉ names) (h : disk.walk? start names = some location) :
    location = start ++ names := by
  induction names generalizing start with
  | nil =>
      cases h
      exact (List.append_nil _).symm
  | cons name rest ih =>
      obtain ⟨hname, hrest⟩ : name ≠ ".." ∧ ".." ∉ rest := by
        simpa [eq_comm] using hup
      rw [walk?] at h
      split at h
      · cases h
      · dsimp only at h
        split at h
        · rw [ih hrest h, List.append_assoc]
          rfl
        · cases h

theorem IsTree.walk?_of_isTaken (tree : disk.IsTree) (hup : ".." ∉ names)
    (hstart : disk.isDirectory start = true) (h : disk.isTaken (start ++ names) = true) :
    disk.walk? start names = some (start ++ names) := by
  induction names generalizing start with
  | nil => rw [walk?, List.append_nil]
  | cons name rest ih =>
      obtain ⟨hname, hrest⟩ : name ≠ ".." ∧ ".." ∉ rest := by
        simpa [eq_comm] using hup
      have hsplit : start ++ name :: rest = start ++ [name] ++ rest := by
        rw [List.append_assoc]
        rfl
      rw [walk?, hstart, if_neg hname]
      rw [hsplit] at h ⊢
      cases rest with
      | nil =>
          rw [List.append_nil] at h
          dsimp only
          rw [← isTaken, h]
          simp [walk?]
      | cons second more =>
          have hnext := tree.isDirectory_of_isTaken h
          dsimp only
          rw [hnext]
          simpa using ih hrest hnext h

theorem settle?_eq (hup : ".." ∉ names) : disk.settle? names.reverse = some names := by
  induction names using List.reverseRecOn with
  | nil => rfl
  | append_singleton front last ih =>
      obtain ⟨hfront, hlast⟩ : ".." ∉ front ∧ last ≠ ".." := by
        simpa [eq_comm] using hup
      rw [List.reverse_append, List.reverse_singleton, List.singleton_append, settle?]
      split
      next found hwalk =>
        have hfound := eq_of_walk? (by simpa [eq_comm] using hup) hwalk
        rw [hfound]
        simp
      next => rw [if_neg hlast, ih hfront, Option.map_some]

/-- A file is at the location of its path. -/
theorem existing?_of_fileAt? (hup : ".." ∉ Disk.names path) (h : (disk.fileAt? path).isSome = true) :
    disk.existing? path = some (disk.origin path ++ Disk.names path) ∧
      (disk.file? (disk.origin path ++ Disk.names path)).isSome = true := by
  obtain ⟨file, hfile⟩ := Option.isSome_iff_exists.1 h
  obtain ⟨location, hexisting, hfound⟩ := Option.bind_eq_some_iff.1 hfile
  have hlocation := eq_of_walk? hup (Option.filter_eq_some_iff.1 hexisting).1
  rw [← hlocation, hfound]
  exact ⟨hexisting, rfl⟩

namespace IsTree

variable (tree : disk.IsTree) (hup : ".." ∉ Disk.names path)

include tree

theorem isDirectory_origin : disk.isDirectory (disk.origin path) = true := by
  unfold origin
  split
  · rfl
  · exact tree.working

include hup

theorem location?_eq : disk.location? path = some (disk.origin path ++ Disk.names path) := by
  have horigin : ".." ∉ disk.origin path := by
    unfold origin
    split
    · exact List.not_mem_nil
    · exact tree.settled
  apply settle?_eq
  rw [List.mem_append, not_or]
  exact ⟨horigin, hup⟩

theorem fileAt?_isSome_iff : (disk.fileAt? path).isSome = true ↔
    (disk.file? (disk.origin path ++ Disk.names path)).isSome = true ∧ endsInDirectory path = false := by
  constructor
  · intro h
    obtain ⟨hexisting, hfile⟩ := existing?_of_fileAt? hup h
    have hkept := (Option.filter_eq_some_iff.1 hexisting).2
    rw [tree.apart _ hfile, Bool.or_false] at hkept
    exact ⟨hfile, by simpa using hkept⟩
  · rintro ⟨hfile, hopen⟩
    have htaken : disk.isTaken (disk.origin path ++ Disk.names path) = true := by
      rw [isTaken, hfile, Bool.or_true]
    unfold fileAt? existing?
    rw [tree.walk?_of_isTaken hup tree.isDirectory_origin htaken, hopen]
    exact hfile

end IsTree

end Stencil.Disk
