import Stencil.Proofs.Resolution.Splitting
import Stencil.Template.Location

/-!
Where paths lead. A path that ends in a name leads to a location that ends in it, so that a file has the
extension of every path that leads to it. Where a path leads depends on the directories, and on which files
there are, but not on what is in them.
-/

namespace Stencil

namespace Text

variable {mark : Char}

theorem splitAt_append (s rest : List Char) :
    splitAt mark (s ++ mark :: rest) = splitAt mark s ++ splitAt mark rest := by
  induction s with
  | nil => rw [List.nil_append, splitAt.eq_2, if_pos rfl, splitAt, List.singleton_append]
  | cons c s ih =>
      rw [List.cons_append, splitAt, splitAt, ih]
      split
      next => rfl
      next =>
        rcases hs : splitAt mark s with _ | ⟨first, pieces⟩
        · exact absurd hs (splitAt_ne_nil mark s)
        · rfl

theorem not_mem_of_mem_splitAt {s piece : List Char} (h : piece ∈ splitAt mark s) : mark ∉ piece := by
  induction s generalizing piece with
  | nil =>
      rw [splitAt, List.mem_singleton] at h
      exact h ▸ List.not_mem_nil
  | cons c rest ih =>
      rw [splitAt] at h
      split at h
      next =>
        rcases List.mem_cons.1 h with rfl | hrest
        · exact List.not_mem_nil
        · exact ih hrest
      next hc =>
        rcases hs : splitAt mark rest with _ | ⟨first, pieces⟩
        · exact absurd hs (splitAt_ne_nil mark rest)
        · rw [hs] at h
          rcases List.mem_cons.1 h with rfl | hlater
          · have hfirst := ih (hs ▸ List.mem_cons_self ..)
            exact fun hmem => (List.mem_cons.1 hmem).elim (fun e => hc e.symm) hfirst
          · exact ih (hs ▸ List.mem_cons_of_mem _ hlater)

/-- What is put behind a text is at the end of its last piece. -/
theorem getLast?_splitAt_append (s : List Char) {ending : List Char} (h : mark ∉ ending) :
    ∃ piece, (splitAt mark (s ++ ending)).getLast? = some (piece ++ ending) := by
  induction s with
  | nil => exact ⟨[], by rw [List.nil_append, splitAt_of_not_mem h]; rfl⟩
  | cons c rest ih =>
      obtain ⟨piece, hlast⟩ := ih
      obtain ⟨front, hsplit⟩ := List.getLast?_eq_some_iff.1 hlast
      rw [List.cons_append, splitAt, hsplit]
      split
      next =>
        refine ⟨piece, ?_⟩
        rw [← List.cons_append]
        exact List.getLast?_concat
      next =>
        cases front with
        | nil => exact ⟨c :: piece, rfl⟩
        | cons first front =>
            refine ⟨piece, ?_⟩
            dsimp only [List.cons_append]
            rw [← List.cons_append]
            exact List.getLast?_concat

end Text

namespace Disk

open Text

variable {disk : Disk} {path name : String} {location : Location}

/-- The last piece of a path is its last name, unless it is no name. -/
theorem getLast?_names {piece : List Char} (h : (splitAt '/' path.toList).getLast? = some piece)
    (hname : String.ofList piece ≠ "") (hpoint : String.ofList piece ≠ ".") :
    (names path).getLast? = some (String.ofList piece) := by
  obtain ⟨front, hsplit⟩ := List.getLast?_eq_some_iff.1 h
  have hkept : [String.ofList piece].filter (fun name => name != "" && name != ".") =
      [String.ofList piece] :=
    List.filter_cons_of_pos (by rw [bne_iff_ne.2 hname, bne_iff_ne.2 hpoint, Bool.and_self])
  unfold names
  rw [hsplit, List.map_append, List.filter_append, List.map_singleton, hkept]
  exact List.getLast?_concat

theorem of_mem_names (h : name ∈ names path) : '/' ∉ name.toList ∧ name ≠ "" ∧ name ≠ "." := by
  obtain ⟨hmem, hkept⟩ := List.mem_filter.1 h
  obtain ⟨piece, hpiece, rfl⟩ := List.mem_map.1 hmem
  obtain ⟨hname, hpoint⟩ := Bool.and_eq_true_iff.1 hkept
  rw [String.toList_ofList]
  exact ⟨not_mem_of_mem_splitAt hpiece, bne_iff_ne.1 hname, bne_iff_ne.1 hpoint⟩

theorem fileName?_eq_some_iff :
    fileName? path = some name ↔ (names path).getLast? = some name ∧ name ≠ ".." := by
  unfold fileName?
  rw [Option.filter_eq_some_iff, bne_iff_ne]

/-- A file has the last name of a path that leads to it. -/
theorem fileName?_path {front : Location} (hname : '/' ∉ name.toList ∧ name ≠ "" ∧ name ≠ ".")
    (hup : name ≠ "..") : fileName? (Location.path (front ++ [name])) = some name := by
  have htext : ∃ before, (Location.path (front ++ [name])).toList = before ++ '/' :: name.toList := by
    unfold Location.path
    rw [String.toList_append]
    cases front with
    | nil => exact ⟨[], by rw [List.nil_append, String.intercalate_singleton]; rfl⟩
    | cons first front =>
        refine ⟨"/".toList ++ ("/".intercalate (first :: front)).toList, ?_⟩
        rw [String.intercalate_append_of_ne_nil (List.cons_ne_nil _ _) (List.cons_ne_nil _ _),
          String.intercalate_singleton, String.toList_append, String.toList_append,
          List.append_assoc, List.append_assoc]
        rfl
  obtain ⟨before, htext⟩ := htext
  refine fileName?_eq_some_iff.2 ⟨?_, hup⟩
  have hlast : (splitAt '/' (Location.path (front ++ [name])).toList).getLast? = some name.toList := by
    rw [htext, splitAt_append, splitAt_of_not_mem hname.1]
    exact List.getLast?_concat
  have hnames := getLast?_names hlast
  rw [String.ofList_toList] at hnames
  exact hnames hname.2.1 hname.2.2

/-- Names that end in one that leads nowhere upwards lead to a location that ends in it. -/
theorem getLast?_of_walk? {start : Location} {front : List String} (hup : name ≠ "..")
    (h : disk.walk? start (front ++ [name]) = some location) : location.getLast? = some name := by
  induction front generalizing start with
  | nil =>
      rw [List.nil_append, walk?] at h
      split at h
      · cases h
      · dsimp only at h
        split at h
        · cases h
          exact List.getLast?_concat
        · cases h
  | cons first front ih =>
      rw [List.cons_append, walk?] at h
      split at h
      · cases h
      · split at h
        · exact ih h
        · dsimp only at h
          split at h
          · exact ih h
          · cases h

theorem getLast?_of_location? (h : disk.location? path = some location)
    (hname : fileName? path = some name) : location.getLast? = some name := by
  obtain ⟨hlast, hup⟩ := fileName?_eq_some_iff.1 hname
  obtain ⟨front, hnames⟩ := List.getLast?_eq_some_iff.1 hlast
  unfold location? at h
  rw [hnames, ← List.append_assoc, List.reverse_append, List.reverse_singleton,
    List.singleton_append, settle?] at h
  split at h
  next found hwalk =>
    cases h
    rw [List.reverse_cons, List.reverse_reverse] at hwalk
    exact getLast?_of_walk? hup hwalk
  next =>
    rw [if_neg hup] at h
    obtain ⟨above, -, rfl⟩ := Option.map_eq_some_iff.1 h
    exact List.getLast?_concat

/-- The extension of what is at a path is the extension of the path. -/
theorem extension?_path (h : disk.location? path = some location)
    (hname : fileName? path = some name) : extension? location.path = extension? path := by
  obtain ⟨front, rfl⟩ := List.getLast?_eq_some_iff.1 (getLast?_of_location? h hname)
  obtain ⟨hlast, hup⟩ := fileName?_eq_some_iff.1 hname
  unfold extension?
  rw [hname, fileName?_path (of_mem_names (List.mem_of_getLast? hlast)) hup]

/-- A path below another one ends in the path that was put there. -/
theorem toList_join (base path : String) : ∃ before, (join base path).toList = before ++ path.toList := by
  unfold join
  split
  · exact ⟨[], rfl⟩
  · split
    · exact ⟨_, String.toList_append⟩
    · exact ⟨_, String.toList_append⟩
    · exact ⟨_, String.toList_append⟩

/-- A path that ends in more than two characters ends in a name, if there is no slash among them. -/
theorem exists_fileName? {before ending : List Char} (h : path.toList = before ++ ending)
    (hslash : '/' ∉ ending) (hlong : 2 < ending.length) : ∃ name, fileName? path = some name := by
  obtain ⟨piece, hlast⟩ := getLast?_splitAt_append before hslash
  have hother (text : String) (hshort : text.toList.length ≤ 2) :
      String.ofList (piece ++ ending) ≠ text := by
    rintro rfl
    rw [String.toList_ofList, List.length_append] at hshort
    omega
  exact ⟨_, fileName?_eq_some_iff.2
    ⟨getLast?_names (h ▸ hlast) (hother "" (by decide)) (hother "." (by decide)), hother ".." (by decide)⟩⟩

/-- Two disks with the same directories, and with files at the same locations, which hold the same wherever
something is asked. -/
structure AgreeOn (asked : Location → Prop) (disk other : Disk) : Prop where
  directories : other.directories = disk.directories
  workingDirectory : other.workingDirectory = disk.workingDirectory
  present : ∀ location, (other.file? location).isSome = (disk.file? location).isSome
  same : ∀ location, asked location → other.file? location = disk.file? location

namespace AgreeOn

variable {asked : Location → Prop} {other : Disk} (h : disk.AgreeOn asked other)

include h

theorem isDirectory (location : Location) : other.isDirectory location = disk.isDirectory location := by
  unfold Disk.isDirectory
  rw [h.directories]

theorem walk? (start : Location) (names : List String) :
    other.walk? start names = disk.walk? start names := by
  induction names generalizing start with
  | nil => rfl
  | cons name rest ih =>
      simp only [Disk.walk?, h.isDirectory, h.present, ih]

theorem settle? (names : List String) : other.settle? names = disk.settle? names := by
  induction names with
  | nil => rfl
  | cons name earlier ih => rw [Disk.settle?, Disk.settle?, h.walk?, ih]

theorem location? (path : String) : other.location? path = disk.location? path := by
  unfold Disk.location? origin
  rw [h.workingDirectory, h.settle?]

end AgreeOn

end Disk

namespace Template

open Disk

/-- Every path that is tried for a template ends in a name. -/
theorem exists_fileName?_of_mem_candidates {base path candidate : String}
    (h : candidate ∈ candidates base path) : ∃ name, fileName? candidate = some name := by
  rcases List.mem_append.1 h with hgiven | hadded
  · split at hgiven
    next hextension =>
      rw [List.mem_singleton.1 hgiven]
      obtain ⟨extension, hextension⟩ := Option.isSome_iff_exists.1 hextension
      obtain ⟨name, hname, -⟩ := Option.bind_eq_some_iff.1 hextension
      exact ⟨name, hname⟩
    next => exact absurd hgiven List.not_mem_nil
  · simp only [List.mem_cons, List.not_mem_nil, or_false] at hadded
    rcases hadded with rfl | rfl
    · exact exists_fileName? String.toList_append (by decide) (by decide)
    · obtain ⟨before, hjoin⟩ := toList_join (join base path) "default.html"
      exact exists_fileName? hjoin (by decide) (by decide)

end Template

end Stencil
