import Mathlib.Data.Finset.Card
import Stencil.Engine
import Stencil.Proofs.DataAwareKeys
import Stencil.Proofs.LayeredScopes
import Stencil.Proofs.RereadValues

/-!
Stores of variables as maps from folded names to values. A store is told by the steps that made it: whatever they
were, it holds under each folded name what was written there last, in the spelling that was used for it, and nothing
else. Copying a store into another keeps the keys as they are, which is right because every binding in such a store
stands under its folded name.
-/

namespace Stencil

namespace Variables

/-- How a store was made, latest step last. The stores that are copied into it were made in the same way. -/
inductive History where
  | empty
  | insert (earlier : History) (name : String) (value : Value)
  | remove (earlier : History) (name : String)
  | clear (earlier : History)
  | retain (earlier : History) (keep : String → Value → Bool)
  | extend (earlier more : History)
  | layered (layers : List History)

namespace History

mutual

/-- The store that the steps make. -/
def store : History → Variables
  | empty => {}
  | insert earlier name value => earlier.store.insert name value
  | remove earlier name => earlier.store.erase name
  | clear _ => {}
  | retain earlier keep => earlier.store.filter keep
  | extend earlier more => earlier.store.extend more.store
  | layered layers => Variables.layered (stores layers)

/-- The stores of layers. -/
def stores : List History → List Variables
  | [] => []
  | layer :: rest => layer.store :: stores rest

end

mutual

/-- The spelling and the value that were written last under a folded name, unless they are gone since. -/
def written? (key : String) : History → Option (String × Value)
  | empty => none
  | insert earlier name value => if fold name = key then some (name, value) else earlier.written? key
  | remove earlier name => if fold name = key then none else earlier.written? key
  | clear _ => none
  | retain earlier keep => (earlier.written? key).filter fun entry => keep entry.1 entry.2
  | extend earlier more => (more.written? key).or (earlier.written? key)
  | layered layers => writtenLast? key layers

/-- What the last layer that has something under a folded name has there. -/
def writtenLast? (key : String) : List History → Option (String × Value)
  | [] => none
  | layer :: rest => (writtenLast? key rest).or (layer.written? key)

end

end History

/-- A store is the map from folded names to what is written there. -/
structure Holds (vars : Variables) (written? : String → Option (String × Value)) : Prop where
  /-- No two names in it have one folded form. -/
  folded : (vars.bindings.map fun binding => fold binding.name).Nodup
  /-- Under any spelling of a name its value is found. -/
  get? (name : String) : vars.get? name = (written? (fold name)).map Prod.snd
  contains (name : String) : vars.contains name = (written? (fold name)).isSome
  /-- Whoever goes through the store sees each name in the spelling used last. -/
  spelled (name : String) (value : Value) :
    (∃ binding ∈ vars.bindings, binding.name = name ∧ binding.value = value) ↔
      written? (fold name) = some (name, value)
  /-- Its size is the number of folded names under which something is written. -/
  size : ∃ keys : Finset String, (∀ key, key ∈ keys ↔ (written? key).isSome) ∧ vars.size = keys.card

/-- The binding under a folded name. -/
def bound (key : String) (entry : String × Value) : Binding := ⟨key, entry.1, entry.2⟩

section Found

variable {vars : Variables}

theorem find?_layered {layers : List Variables} (h : ∀ layer ∈ layers, layer.Distinct) (key : String) :
    (Variables.layered layers).find? key = layers.reverse.findSome? fun layer => layer.find? key := by
  have hfold {vars : Variables} : (layers.foldl Variables.extend vars).find? key =
      (layers.reverse.findSome? fun layer => layer.find? key).or (vars.find? key) := by
    induction layers generalizing vars with
    | nil => rfl
    | cons layer rest ih =>
        obtain ⟨hlayer, hrest⟩ := List.forall_mem_cons.1 h
        rw [List.foldl_cons, ih hrest, find?_extend, latest?_eq_find? hlayer, List.reverse_cons,
          List.findSome?_append, List.findSome?_singleton, Option.or_assoc]
  exact hfold.trans (Option.or_none ..)

/-- A store is a map of what is written if its keys are distinct and every binding stands under its folded name. -/
theorem holds_of_find? {written? : String → Option (String × Value)} (distinct : vars.Distinct)
    (folded : vars.Folded) (h : ∀ key, vars.find? key = (written? key).map (bound key)) : vars.Holds written? where
  folded := by
    have hkeys : vars.bindings.map (fun binding => fold binding.name) = vars.bindings.map Binding.key :=
      List.map_congr_left fun binding hmem => (folded binding hmem).symm
    exact hkeys ▸ distinct
  get? name := by
    rw [Variables.get?, h, Option.map_map]
    rfl
  contains name := by rw [Variables.contains, h, Option.isSome_map]
  spelled name value := by
    constructor
    · rintro ⟨binding, hmem, rfl, rfl⟩
      have hfound := (find?_eq_some_iff distinct).2 ⟨hmem, folded binding hmem⟩
      rw [h] at hfound
      obtain ⟨entry, hentry, hbound⟩ := Option.map_eq_some_iff.1 hfound
      exact hentry.trans (congrArg (fun binding => some (binding.name, binding.value)) hbound)
    · intro hwritten
      have hfound : vars.find? (fold name) = some (bound (fold name) (name, value)) := by
        rw [h, hwritten, Option.map_some]
      exact ⟨_, ((find?_eq_some_iff distinct).1 hfound).1, rfl, rfl⟩
  size := by
    refine ⟨(vars.bindings.map Binding.key).toFinset, fun key => ?_, ?_⟩
    · have hsome : (written? key).isSome = (vars.find? key).isSome := by rw [h, Option.isSome_map]
      rw [hsome, List.mem_toFinset, List.mem_map, Option.isSome_iff_exists]
      exact exists_congr fun binding => (find?_eq_some_iff distinct).symm
    · rw [List.toFinset_card_of_nodup distinct, List.length_map]
      rfl

/-- The keys in the order in which a fingerprint reads them. -/
theorem keysAscend_sorted (distinct : vars.Distinct) : KeysAscend vars.sorted := by
  have hsorted : (vars.bindings.mergeSort fun a b => a.key ≤ b.key).Pairwise fun a b => a.key ≤ b.key := by
    refine (List.pairwise_mergeSort ?_ ?_ vars.bindings).imp of_decide_eq_true
    · exact fun a b c hab hbc => decide_eq_true (String.le_trans (of_decide_eq_true hab) (of_decide_eq_true hbc))
    · exact fun a b => by simpa using String.le_total a.key b.key
  have hdistinct : (vars.bindings.mergeSort fun a b => a.key ≤ b.key).Pairwise fun a b => a.key ≠ b.key :=
    List.pairwise_map.1 (((List.mergeSort_perm vars.bindings _).map Binding.key).nodup_iff.2 distinct)
  refine List.pairwise_map.2 ((hsorted.and hdistinct).imp fun h => ?_)
  exact String.not_le.1 fun hge => h.2 (String.le_antisymm h.1 hge)

theorem mem_sorted_iff_get? (distinct : vars.Distinct) (folded : vars.Folded) {key : String} {value : Value} :
    (key, value) ∈ vars.sorted ↔ ∃ name, fold name = key ∧ vars.get? name = some value := by
  rw [mem_sorted]
  constructor
  · rintro ⟨binding, hmem, rfl, rfl⟩
    have hkey := (folded binding hmem).symm
    refine ⟨binding.name, hkey, ?_⟩
    rw [Variables.get?, (find?_eq_some_iff distinct).2 ⟨hmem, hkey.symm⟩, Option.map_some]
  · rintro ⟨name, rfl, hvalue⟩
    obtain ⟨binding, hfound, rfl⟩ := Option.map_eq_some_iff.1 hvalue
    obtain ⟨hmem, hkey⟩ := (find?_eq_some_iff distinct).1 hfound
    exact ⟨binding, hmem, hkey, rfl⟩

/-- Stores in which every name has the same value have the same fingerprint. -/
theorem fingerprint_eq_of_get? {other : Variables} (distinct : vars.Distinct) (distinct' : other.Distinct)
    (folded : vars.Folded) (folded' : other.Folded) (h : ∀ name, vars.get? name = other.get? name) :
    vars.fingerprint = other.fingerprint := by
  have hsorted : vars.sorted = other.sorted := by
    refine (keysAscend_sorted distinct).ext (keysAscend_sorted distinct') fun (key, value) => ?_
    rw [mem_sorted_iff_get? distinct folded, mem_sorted_iff_get? distinct' folded']
    simp only [h]
  exact congrArg (fun entries => Digest.sha256Hex (Value.map entries).json) hsorted

end Found

namespace History

theorem stores_eq_map (layers : List History) : stores layers = layers.map store := by
  induction layers with
  | nil => rfl
  | cons layer rest ih => rw [stores, ih, List.map_cons]

theorem writtenLast?_eq (key : String) (layers : List History) :
    writtenLast? key layers = layers.reverse.findSome? fun layer => layer.written? key := by
  induction layers with
  | nil => rfl
  | cons layer rest ih =>
      rw [writtenLast?, ih, List.reverse_cons, List.findSome?_append, List.findSome?_singleton]

theorem distinct_store : (history : History) → history.store.Distinct
  | empty | clear _ => List.nodup_nil
  | insert earlier name value => distinct_insert (distinct_store earlier) name value
  | remove earlier name => distinct_erase (distinct_store earlier) name
  | retain earlier keep => distinct_filter (distinct_store earlier) keep
  | extend earlier more => distinct_extend (distinct_store earlier) more.store
  | layered layers => distinct_layered (stores layers)

theorem distinct_stores (layers : List History) : ∀ layer ∈ stores layers, layer.Distinct := by
  rw [stores_eq_map]
  exact List.forall_mem_map.2 fun layer _ => distinct_store layer

mutual

theorem folded_store : (history : History) → history.store.Folded
  | empty | clear _ => every_empty
  | insert earlier _ _ => every_insert (folded_store earlier) rfl
  | remove earlier name => every_erase (folded_store earlier) name
  | retain earlier keep => every_filter (folded_store earlier) keep
  | extend earlier more => every_extend (folded_store earlier) (folded_store more)
  | layered layers => every_layered (folded_stores layers)

theorem folded_stores : (layers : List History) → ∀ layer ∈ stores layers, layer.Folded
  | [] => fun _ hmem => absurd hmem List.not_mem_nil
  | layer :: rest => List.forall_mem_cons.2 ⟨folded_store layer, folded_stores rest⟩

end

mutual

/-- Under a folded name a store has the binding that was written there last. -/
theorem find?_store (key : String) : (history : History) →
    history.store.find? key = (history.written? key).map (bound key)
  | empty | clear _ => rfl
  | insert earlier name value => by
      rw [store, find?_insert, find?_store key earlier, written?]
      by_cases hname : fold name = key
      · rw [if_pos hname, if_pos (beq_of_eq hname), hname]
        rfl
      · rw [if_neg hname, if_neg fun h => hname (eq_of_beq h)]
  | remove earlier name => by
      rw [store, find?_erase, find?_store key earlier, written?]
      by_cases hname : fold name = key
      · rw [if_pos hname, if_pos (beq_of_eq hname)]
        rfl
      · rw [if_neg hname, if_neg fun h => hname (eq_of_beq h)]
  | retain earlier keep => by
      rw [store, find?_filter (distinct_store earlier), find?_store key earlier, written?, Option.filter_map]
      rfl
  | extend earlier more => by
      rw [store, find?_extend, latest?_eq_find? (distinct_store more), find?_store key earlier, find?_store key more,
        written?, Option.map_or]
  | layered layers => by
      rw [store, find?_layered (distinct_stores layers), find?_stores key layers, written?]

theorem find?_stores (key : String) : (layers : List History) →
    (stores layers).reverse.findSome? (fun layer => layer.find? key) = (writtenLast? key layers).map (bound key)
  | [] => rfl
  | layer :: rest => by
      rw [stores, List.reverse_cons, List.findSome?_append, List.findSome?_singleton, find?_stores key rest,
        find?_store key layer, writtenLast?, Option.map_or]

end

/-- Whatever steps made a store, it is a map from folded names to the values written last; of layers the last that
binds a name counts, so that a call comes before its engine and an engine before all engines; and a fingerprint
depends on the values under the folded names alone. -/
theorem store_folds_names (history : History) :
    history.store.Holds (fun key => history.written? key) ∧
    (∀ (layers : List History) (name : String),
      (Variables.layered (layers.map store)).get? name =
        layers.reverse.findSome? fun layer => layer.store.get? name) ∧
    (∀ (engine : Engine) (shared : Shared) (own globals : History) (name : String),
      (Engine.environment { engine with vars := own.store } { shared with globals := globals.store }
          history.store).get? name =
        (history.store.get? name).or ((own.store.get? name).or (globals.store.get? name))) ∧
    ∀ other : History, (∀ name, history.store.get? name = other.store.get? name) →
      history.store.fingerprint = other.store.fingerprint := by
  have hlayered (layers : List History) (name : String) : (Variables.layered (layers.map store)).get? name =
      layers.reverse.findSome? fun layer => layer.store.get? name := by
    have hdistinct : ∀ layer ∈ layers.map store, layer.Distinct :=
      List.forall_mem_map.2 fun layer _ => distinct_store layer
    unfold Variables.get?
    rw [find?_layered hdistinct, ← List.map_reverse, List.findSome?_map, List.map_findSome?]
    rfl
  refine ⟨?_, hlayered, fun engine shared own globals name => ?_, fun other h => ?_⟩
  · exact holds_of_find? (distinct_store history) (folded_store history) fun key => find?_store key history
  · have h := hlayered [globals, own, history] name
    simp only [List.reverse_cons, List.reverse_nil, List.nil_append, List.findSome?_append,
      List.findSome?_singleton, Option.or_assoc] at h
    exact h
  · exact fingerprint_eq_of_get? (distinct_store history) (distinct_store other) (folded_store history)
      (folded_store other) h

/-- Neither the order of the steps nor the spelling of the names counts, nor what is gone at the end. -/
theorem store_folds_names_respelled :
    let history := ((empty.insert "Name" (.int 1)).insert "count" (.int 2))
    let other := (((empty.insert "COUNT" (.int 2)).insert "old" .null).insert "NAME" (.int 1)).remove "OLD"
    (∀ name, history.store.get? name = other.store.get? name) ∧
      history.store.fingerprint = other.store.fingerprint := by
  intro history other
  have hnames : fold "NAME" = fold "Name" ∧ fold "COUNT" = fold "count" ∧ fold "OLD" = fold "old" ∧
      fold "Name" ≠ fold "count" ∧ fold "Name" ≠ fold "old" ∧ fold "count" ≠ fold "old" := by decide
  obtain ⟨hname, hcount, hold, hnamecount, hnameold, hcountold⟩ := hnames
  have hvalues (name : String) : history.store.get? name = other.store.get? name := by
    have hempty : get? {} name = none := rfl
    simp only [history, other, store, get?_insert, get?_erase, beq_iff_eq, hname, hcount, hold, hempty]
    grind
  exact ⟨hvalues, (store_folds_names history).2.2.2 other hvalues⟩

end History

end Variables

end Stencil
