import Mathlib.Data.List.Sort
import Stencil.Json.Document
import Stencil.Proofs.IntegerArithmetic

/-!
Values that are handed over as documents and read back. What is data comes back as it was: null, truth values,
integers, finite numbers, strings, and lists and maps of such values. An integer is told by its sign on the way and
fits where it came from; a number in floating point stays one, whole or not. Maps come back entry by entry because
their entries are sorted. Nothing else comes back as it was: whatever is read back is data.
-/

namespace Stencil

section Entries

variable {α β : Type}

/-- The entries of a map: sorted by their keys, of which each stands once. -/
def KeysAscend (entries : List (String × α)) : Prop := entries.Pairwise fun first second => first.1 < second.1

theorem KeysAscend.map {entries : List (String × α)} (h : KeysAscend entries) (f : α → β) :
    KeysAscend (entries.map fun entry => (entry.1, f entry.2)) :=
  List.pairwise_map.2 h

/-- Sorted entries are told by what is among them. -/
theorem KeysAscend.ext {entries others : List (String × α)} (h : KeysAscend entries) (h' : KeysAscend others)
    (hmem : ∀ entry, entry ∈ entries ↔ entry ∈ others) : entries = others := by
  have : Std.Irrefl fun first second : String × α => first.1 < second.1 := ⟨fun _ => String.lt_irrefl _⟩
  have : Std.Antisymm fun first second : String × α => first.1 < second.1 :=
    ⟨fun _ _ hless hgreater => absurd (String.lt_trans hless hgreater) (String.lt_irrefl _)⟩
  exact List.Pairwise.eq_of_mem_iff h h' hmem

namespace Value

theorem mem_of_mem_insertEntry {key : String} {value : α} {entry : String × α} {entries : List (String × α)}
    (h : entry ∈ insertEntry key value entries) : entry = (key, value) ∨ entry ∈ entries := by
  induction entries with
  | nil => exact .inl (List.mem_singleton.1 h)
  | cons first rest ih =>
      rw [insertEntry] at h
      split at h
      · exact List.mem_cons.1 h
      · split at h
        · exact (List.mem_cons.1 h).imp_right (List.mem_cons_of_mem _)
        · rcases List.mem_cons.1 h with rfl | h
          · exact .inr (List.mem_cons_self ..)
          · exact (ih h).imp_right (List.mem_cons_of_mem _)

theorem keysAscend_insertEntry {entries : List (String × α)} (h : KeysAscend entries) (key : String)
    (value : α) : KeysAscend (insertEntry key value entries) := by
  induction entries with
  | nil => exact List.pairwise_singleton ..
  | cons first rest ih =>
      obtain ⟨hfirst, hrest⟩ := List.pairwise_cons.1 h
      rw [insertEntry]
      split
      next hless =>
        refine List.pairwise_cons.2 ⟨List.forall_mem_cons.2 ⟨hless, fun entry hmem => ?_⟩, h⟩
        exact String.lt_trans hless (hfirst entry hmem)
      next hge =>
        split
        next hsame =>
          subst hsame
          exact List.pairwise_cons.2 ⟨hfirst, hrest⟩
        next hother =>
          refine List.pairwise_cons.2 ⟨fun entry hmem => ?_, ih hrest⟩
          rcases mem_of_mem_insertEntry hmem with rfl | hmem
          · exact String.not_le.1 fun hle => hother (String.le_antisymm hle (String.not_lt.1 hge))
          · exact hfirst entry hmem

/-- An entry behind all others is put at the end. -/
theorem insertEntry_of_forall_lt {key : String} (value : α) {entries : List (String × α)}
    (h : ∀ entry ∈ entries, entry.1 < key) : insertEntry key value entries = entries ++ [(key, value)] := by
  induction entries with
  | nil => rfl
  | cons first rest ih =>
      obtain ⟨hfirst, hrest⟩ := List.forall_mem_cons.1 h
      have hge : ¬ key < first.1 := fun hless => String.lt_irrefl _ (String.lt_trans hfirst hless)
      have hother : key ≠ first.1 := fun hsame => String.lt_irrefl key (hsame ▸ hfirst)
      rw [insertEntry, if_neg hge, if_neg hother, ih hrest]
      rfl

theorem keysAscend_sortEntries (entries : List (String × α)) : KeysAscend (sortEntries entries) := by
  have hfold {sorted : List (String × α)} (h : KeysAscend sorted) :
      KeysAscend (entries.foldl (fun sorted entry => insertEntry entry.1 entry.2 sorted) sorted) := by
    induction entries generalizing sorted with
    | nil => exact h
    | cons entry rest ih => exact ih (keysAscend_insertEntry h entry.1 entry.2)
  exact hfold List.Pairwise.nil

theorem mem_of_mem_sortEntries {entry : String × α} {entries : List (String × α)} :
    entry ∈ sortEntries entries → entry ∈ entries := by
  have hfold {sorted : List (String × α)}
      (h : entry ∈ entries.foldl (fun sorted entry => insertEntry entry.1 entry.2 sorted) sorted) :
      entry ∈ sorted ∨ entry ∈ entries := by
    induction entries generalizing sorted with
    | nil => exact .inl h
    | cons first rest ih =>
        rcases ih h with h | h
        · rcases mem_of_mem_insertEntry h with rfl | h
          · exact .inr (List.mem_cons_self ..)
          · exact .inl h
        · exact .inr (List.mem_cons_of_mem _ h)
  exact fun h => (hfold h).resolve_left List.not_mem_nil

/-- Entries that are sorted stay as they are. -/
theorem sortEntries_eq_self {entries : List (String × α)} : KeysAscend entries → sortEntries entries = entries := by
  have hfold {sorted : List (String × α)} (h : KeysAscend (sorted ++ entries)) :
      entries.foldl (fun sorted entry => insertEntry entry.1 entry.2 sorted) sorted = sorted ++ entries := by
    induction entries generalizing sorted with
    | nil => exact (List.append_nil _).symm
    | cons entry rest ih =>
        have hbehind : ∀ earlier ∈ sorted, earlier.1 < entry.1 := fun earlier hmem =>
          (List.pairwise_append.1 h).2.2 earlier hmem entry (List.mem_cons_self ..)
        rw [List.append_cons] at h ⊢
        rw [List.foldl_cons, insertEntry_of_forall_lt entry.2 hbehind]
        exact ih h
  exact @hfold []

end Value

end Entries

namespace Json

theorem Number.value_ofInt (n : Int64) : (Number.ofInt n).value = .int n := by
  have hint : (Number.ofInt n).int? = some n := by
    unfold ofInt
    split
    · rfl
    next hnonneg =>
      have hsize : n.toUInt64.toNat = n.toInt.toNat := Int64.toNat_toUInt64_of_le (Int64.not_lt.1 hnonneg)
      have hinteger : 0 ≤ n.toInt := Int64.le_iff_toInt_le.1 (Int64.not_lt.1 hnonneg)
      rw [int?, Formula.word?_eq_some_iff, hsize]
      omega
  rw [value, hint]

theorem Document.itemValues_eq_map (items : List Document) : itemValues items = items.map value := by
  induction items with
  | nil => rfl
  | cons item rest ih => rw [itemValues, ih, List.map_cons]

theorem Document.entryValues_eq_map (entries : List (String × Document)) :
    entryValues entries = entries.map fun entry => (entry.1, entry.2.value) := by
  induction entries with
  | nil => rfl
  | cons entry rest ih => rw [entryValues, ih, List.map_cons]

end Json

namespace Value

open Json

theorem itemDocuments_eq_map (items : List Value) : itemDocuments items = items.map document := by
  induction items with
  | nil => rfl
  | cons item rest ih => rw [itemDocuments, ih, List.map_cons]

theorem entryDocuments_eq_map (entries : List (String × Value)) :
    entryDocuments entries = entries.map fun entry => (entry.1, entry.2.document) := by
  induction entries with
  | nil => rfl
  | cons entry rest ih => rw [entryDocuments, ih, List.map_cons]

/-- A value that is built from null, truth values, integers, finite numbers, strings, lists and maps. A finite number
has its sign in itself. -/
inductive IsData : Value → Prop
  | null : IsData .null
  | bool (b : Bool) : IsData (.bool b)
  | int (n : Int64) : IsData (.int n)
  | float {x : Float} (finite : x.isFinite = true) : IsData (.float x)
  | string (s : String) : IsData (.string s)
  | list {items : List Value} (data : ∀ item ∈ items, IsData item) : IsData (.list items)
  | map {entries : List (String × Value)} (ascend : KeysAscend entries)
      (data : ∀ entry ∈ entries, IsData entry.2) : IsData (.map entries)

theorem reread_list (items : List Value) : (list items).reread = .list (items.map reread) := by
  rw [reread, document, itemDocuments_eq_map, Document.value, Document.itemValues_eq_map, List.map_map]
  rfl

/-- Entries are read back as a map, whether they are those of a map or the fields of an object. -/
theorem value_map_sortEntries (entries : List (String × Value)) :
    (Document.map (sortEntries (entryDocuments entries))).value =
      .map ((sortEntries (entryDocuments entries)).map fun entry => (entry.1, entry.2.value)) := by
  rw [Document.value, Document.entryValues_eq_map, ofEntries,
    sortEntries_eq_self ((keysAscend_sortEntries _).map Document.value)]

theorem reread_float (x : Floating) :
    (float x).reread = if x.number.isFinite = true then .float x.number else .null := by
  unfold reread document Number.ofFloat?
  split
  next number hnumber =>
    split at hnumber
    next finite =>
      cases hnumber
      rw [if_pos finite]
      rfl
    next => cases hnumber
  next hnone =>
    split at hnone
    next => cases hnone
    next infinite =>
      rw [if_neg infinite]
      rfl

theorem IsData.reread_eq {value : Value} (h : value.IsData) : value.reread = value := by
  induction h with
  | null | bool | string => rfl
  | int n => exact Number.value_ofInt n
  | float finite => rw [reread_float, if_pos finite]
  | @list items _ ih => rw [reread_list, List.map_congr_left ih, List.map_id']
  | @map entries ascend _ ih =>
      have hentries : entries.map (fun entry => (entry.1, entry.2.document.value)) = entries := by
        refine Eq.trans (List.map_congr_left fun entry hmem => ?_) (List.map_id' entries)
        exact congrArg (Prod.mk entry.1) (ih entry hmem)
      have hsorted : sortEntries (entryDocuments entries) =
          entries.map fun entry => (entry.1, entry.2.document) := by
        rw [entryDocuments_eq_map]
        exact sortEntries_eq_self (ascend.map document)
      rw [reread, document, value_map_sortEntries, hsorted, List.map_map]
      exact congrArg Value.map hentries

theorem isData_sortEntries {entries : List (String × Value)} (h : ∀ entry ∈ entries, entry.2.reread.IsData) :
    ∀ entry ∈ (sortEntries (entryDocuments entries)).map fun entry => (entry.1, entry.2.value), entry.2.IsData := by
  refine List.forall_mem_map.2 fun entry hmem => ?_
  have hmem := mem_of_mem_sortEntries hmem
  rw [entryDocuments_eq_map] at hmem
  obtain ⟨handed, hhanded, rfl⟩ := List.mem_map.1 hmem
  exact h handed hhanded

mutual

/-- What is read back is data, whatever was handed over. -/
theorem isData_reread : (value : Value) → value.reread.IsData
  | .null => .null
  | .bool b => .bool b
  | .int n => by
      have hint : (int n).reread = .int n := Number.value_ofInt n
      rw [hint]
      exact .int n
  | .float x => by
      rw [reread_float]
      split
      next finite => exact .float finite
      next => exact .null
  | .string s => .string s
  | .list items => by
      rw [reread_list]
      exact .list (isData_rereadItems items)
  | .map entries => by
      rw [reread, document, value_map_sortEntries]
      exact .map ((keysAscend_sortEntries _).map Document.value) (isData_sortEntries (isData_rereadEntries entries))
  | .object ⟨_, _, fields, _, _, _⟩ => by
      rw [reread, document, value_map_sortEntries]
      exact .map ((keysAscend_sortEntries _).map Document.value) (isData_sortEntries (isData_rereadEntries fields))

theorem isData_rereadItems : (items : List Value) → ∀ item ∈ items.map reread, item.IsData
  | [] => fun _ hmem => absurd hmem List.not_mem_nil
  | item :: rest => List.forall_mem_cons.2 ⟨isData_reread item, isData_rereadItems rest⟩

theorem isData_rereadEntries : (entries : List (String × Value)) → ∀ entry ∈ entries, entry.2.reread.IsData
  | [] => fun _ hmem => absurd hmem List.not_mem_nil
  | (_, value) :: rest => List.forall_mem_cons.2 ⟨isData_reread value, isData_rereadEntries rest⟩

end

/-- Exactly data comes back as it was, the same at every position: the same kinds, integers, numbers, strings, keys
and order of items. -/
theorem reread_eq_self_iff (value : Value) : value.reread = value ↔ value.IsData :=
  ⟨fun h => h ▸ isData_reread value, IsData.reread_eq⟩

end Value

end Stencil
