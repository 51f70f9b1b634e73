import Mathlib.Data.List.Nodup
import Stencil.Cache

/-!
Histories of a bounded cache, and what is kept after them. Every access has a moment of its own, so that the
moments put the entries in the order of their latest accesses; what an insertion drops comes before all that
it keeps. A value stays until something is inserted in its place or something drops it.
-/

namespace Stencil.Cache

variable {κ α : Type} [BEq κ]

/-- What is done to a cache. A look that accepts every value is a plain look. -/
inductive Operation (κ α : Type) where
  | look (accept : α → Bool) (key : κ)
  | insert (key : κ) (value : α)
  | erase (key : κ)
  | filterKeys (keep : κ → Bool)
  | clear

/-- What was done to a cache, the latest operation first. -/
abbrev History (κ α : Type) := List (Operation κ α)

namespace Operation

/-- The cache after an operation. -/
def apply : Operation κ α → Cache κ α → Cache κ α
  | .look accept key, cache => (cache.lookupIf accept key).2
  | .insert key value, cache => cache.insert key value
  | .erase key, cache => cache.erase key
  | .filterKeys keep, cache => (cache.filterKeys keep).2
  | .clear, cache => cache.clear

/-- Whether an operation accesses a key: it inserts it, or looks it up and finds it. -/
def accesses (cache : Cache κ α) (key : κ) : Operation κ α → Bool
  | .look accept other => other == key && (cache.lookupIf accept other).1.isSome
  | .insert other _ => other == key
  | _ => false

/-- Whether an operation puts a value under a key. -/
def inserts (key : κ) : Operation κ α → Bool
  | .insert other _ => other == key
  | _ => false

/-- Whether nothing is kept under a key because of an operation: its value is not accepted, an insertion
leaves no room for it, or it is removed. -/
def drops (cache : Cache κ α) (key : κ) : Operation κ α → Bool
  | .look accept other => other == key && (cache.lookupIf accept other).1.isNone
  | .insert other value => ((cache.insert other value).find? key).isNone
  | .erase other => other == key
  | .filterKeys keep => !keep key
  | .clear => true

/-- How many entries an operation removes because there are too many. -/
def overflow (cache : Cache κ α) : Operation κ α → Nat
  | .insert key value => (cache.erase key).size + 1 - (cache.insert key value).size
  | _ => 0

def isLook : Operation κ α → Bool
  | .look _ _ => true
  | _ => false

def isClear : Operation κ α → Bool
  | .clear => true
  | _ => false

end Operation

/-- A new cache after a history. -/
def after (capacity : Nat) (history : History κ α) : Cache κ α :=
  history.foldr Operation.apply { capacity }

/-- How many operations ago a key was accessed last. -/
def age (capacity : Nat) (key : κ) : History κ α → Nat
  | [] => 0
  | operation :: earlier =>
      if operation.accesses (after capacity earlier) key then 0 else age capacity key earlier + 1

/-- How many looks there were since the latest clearing. -/
def looks (history : History κ α) : Nat :=
  (history.takeWhile (!·.isClear)).countP Operation.isLook

/-- How many entries were removed since the latest clearing because there were too many. -/
def overflows (capacity : Nat) : History κ α → Nat
  | [] => 0
  | .clear :: _ => 0
  | operation :: earlier => operation.overflow (after capacity earlier) + overflows capacity earlier

/-- The keys that are kept, with their values. -/
def contents (cache : Cache κ α) : List (κ × α) :=
  cache.entries.map fun entry => (entry.key, entry.value)

/-- A value was inserted under a key, and since then nothing was inserted there and nothing dropped it. -/
def Latest (capacity : Nat) (history : History κ α) (key : κ) (value : α) : Prop :=
  ∃ later earlier, history = later ++ .insert key value :: earlier ∧
    (∀ operation ∈ later, operation.inserts key = false) ∧
    ∀ last operation first, later = last ++ operation :: first →
      operation.drops (after capacity (first ++ .insert key value :: earlier)) key = false

/-- Keys and moments of access tell entries apart, and no entry was accessed in the future. -/
structure Orderly (cache : Cache κ α) : Prop where
  keys : (cache.entries.map Entry.key).Nodup
  moments : (cache.entries.map Entry.accessed).Nodup
  past : ∀ entry ∈ cache.entries, entry.accessed ≤ cache.clock

section Steps

variable {cache : Cache κ α} {accept : α → Bool} {key : κ} {value : α} {entry : Entry κ α}

theorem lookupIf_missed (h : cache.find? key = none) :
    cache.lookupIf accept key = (none, { cache with
      clock := cache.clock + 1
      counters := { cache.counters with misses := cache.counters.misses + 1 } }) := by
  replace h : List.find? (·.key == key) cache.entries = none := h
  unfold lookupIf find?
  dsimp only
  rw [h]

theorem lookupIf_rejected (h : cache.find? key = some entry) (hreject : accept entry.value = false) :
    cache.lookupIf accept key = (none, { cache with
      entries := (cache.erase key).entries
      clock := cache.clock + 1
      counters := { cache.counters with misses := cache.counters.misses + 1 } }) := by
  replace h : List.find? (·.key == key) cache.entries = some entry := h
  unfold lookupIf find?
  dsimp only
  rw [h]
  dsimp only
  rw [hreject, if_neg Bool.false_ne_true]
  rfl

theorem lookupIf_accepted (h : cache.find? key = some entry) (haccept : accept entry.value = true) :
    cache.lookupIf accept key = (some entry.value, { cache with
      entries := cache.entries.map fun e =>
        if e.key == key then { e with accessed := cache.clock + 1 } else e
      clock := cache.clock + 1
      counters := { cache.counters with hits := cache.counters.hits + 1 } }) := by
  replace h : List.find? (·.key == key) cache.entries = some entry := h
  unfold lookupIf find?
  dsimp only
  rw [h]
  dsimp only
  rw [haccept, if_pos rfl]

end Steps

section Orderly

variable [LawfulBEq κ] {cache : Cache κ α} {key : κ} {value : α}

omit [BEq κ] [LawfulBEq κ] in
theorem mem_contents : (key, value) ∈ cache.contents ↔
    ∃ moment, (⟨key, value, moment⟩ : Entry κ α) ∈ cache.entries := by
  simp only [contents, List.mem_map, Prod.mk.injEq]
  constructor
  · rintro ⟨⟨_, _, moment⟩, hmem, rfl, rfl⟩
    exact ⟨moment, hmem⟩
  · rintro ⟨moment, hmem⟩
    exact ⟨_, hmem, rfl, rfl⟩

theorem find?_eq_some_iff (h : cache.Orderly) {entry : Entry κ α} :
    cache.find? key = some entry ↔ entry ∈ cache.entries ∧ entry.key = key := by
  constructor
  · intro hfound
    exact ⟨List.mem_of_find?_eq_some hfound, by simpa using List.find?_some hfound⟩
  · rintro ⟨hmem, rfl⟩
    cases hfound : cache.find? entry.key with
    | none =>
        have habsent := List.find?_eq_none.1 hfound entry hmem
        simp at habsent
    | some found =>
        have hkey : found.key = entry.key := by simpa using List.find?_some hfound
        rw [List.inj_on_of_nodup_map h.keys (List.mem_of_find?_eq_some hfound) hmem hkey]

theorem find?_isNone_iff {key : κ} :
    (cache.find? key).isNone ↔ ∀ entry ∈ cache.entries, entry.key ≠ key := by
  rw [Option.isNone_iff_eq_none, find?, List.find?_eq_none]
  simp

/-- The entries before too many are dropped: the new one, and those under other keys. -/
def joined (cache : Cache κ α) (key : κ) (value : α) : List (Entry κ α) :=
  ⟨key, value, cache.clock + 1⟩ :: (cache.erase key).entries

theorem mem_erase {entry : Entry κ α} :
    entry ∈ (cache.erase key).entries ↔ entry ∈ cache.entries ∧ entry.key ≠ key := by
  simp [erase]

theorem orderly_erase (h : cache.Orderly) (key : κ) : (cache.erase key).Orderly where
  keys := h.keys.sublist (List.filter_sublist.map _)
  moments := h.moments.sublist (List.filter_sublist.map _)
  past entry hmem := h.past entry (mem_erase.1 hmem).1

theorem orderly_joined (h : cache.Orderly) (key : κ) (value : α) :
    ({ cache with entries := cache.joined key value, clock := cache.clock + 1 } : Cache κ α).Orderly := by
  have herased := orderly_erase h key
  refine ⟨List.nodup_cons.2 ⟨fun hmem => ?_, herased.keys⟩,
    List.nodup_cons.2 ⟨fun hmem => ?_, herased.moments⟩, List.forall_mem_cons.2 ⟨Nat.le_refl _, ?_⟩⟩
  · obtain ⟨entry, hentry, heq⟩ := List.mem_map.1 hmem
    exact (mem_erase.1 hentry).2 heq
  · obtain ⟨entry, hentry, heq⟩ := List.mem_map.1 hmem
    have hpast : entry.accessed ≤ cache.clock := herased.past entry hentry
    dsimp only at heq
    omega
  · exact fun entry hmem => Nat.le_succ_of_le (herased.past entry hmem)

/-- What an insertion drops was accessed before all that it keeps. -/
theorem insert_split (h : cache.Orderly) (key : κ) (value : α) :
    ∃ dropped, (dropped ++ (cache.insert key value).entries).Perm (cache.joined key value) ∧
      dropped.length = (if (cache.joined key value).length ≤ max cache.capacity 1 then 0
        else max ((cache.joined key value).length / 5) 1) ∧
      ∀ old ∈ dropped, ∀ kept ∈ (cache.insert key value).entries, old.accessed < kept.accessed := by
  have hinsert : (cache.insert key value).entries =
      if (cache.joined key value).length ≤ max cache.capacity 1 then cache.joined key value
      else dropOldest (max ((cache.joined key value).length / 5) 1) (cache.joined key value) := by
    unfold insert joined
    dsimp only
    split <;> rfl
  rw [hinsert]
  split
  next => exact ⟨[], .refl _, rfl, fun _ hmem => absurd hmem List.not_mem_nil⟩
  next hover =>
    unfold dropOldest
    generalize hsorted : (cache.joined key value).mergeSort (fun a b => a.accessed ≤ b.accessed) = sorted
    have hperm : sorted.Perm (cache.joined key value) := hsorted ▸ List.mergeSort_perm ..
    have hmoments : (sorted.map Entry.accessed).Nodup :=
      ((hperm.map _).nodup_iff).2 (orderly_joined h key value).moments
    have hrising : (sorted.map Entry.accessed).Pairwise (· < ·) := by
      have hpairwise : sorted.Pairwise fun a b => a.accessed ≤ b.accessed := by
        have := @List.pairwise_mergeSort _ (fun a b : Entry κ α => decide (a.accessed ≤ b.accessed))
          (fun a b c hab hbc => decide_eq_true (Nat.le_trans (of_decide_eq_true hab) (of_decide_eq_true hbc)))
          (fun a b => by simpa using Nat.le_total a.accessed b.accessed)
          (cache.joined key value)
        rw [hsorted] at this
        simpa using this
      exact (List.Pairwise.and (List.pairwise_map.2 hpairwise) hmoments).imp
        fun hboth => Nat.lt_of_le_of_ne hboth.1 hboth.2
    generalize hcount : max ((cache.joined key value).length / 5) 1 = count
    refine ⟨sorted.take count, ?_, ?_, ?_⟩
    · rw [List.take_append_drop]
      exact hperm
    · rw [List.length_take, hperm.length_eq]
      have : 0 < (cache.joined key value).length := Nat.zero_lt_succ _
      omega
    · rw [← List.take_append_drop count sorted, List.map_append, List.pairwise_append] at hrising
      exact fun old hold kept hkept => hrising.2.2 _ (List.mem_map_of_mem hold) _ (List.mem_map_of_mem hkept)

/-- The new entry is the latest of all and is kept. -/
theorem mem_insert (h : cache.Orderly) (key : κ) (value : α) :
    ⟨key, value, cache.clock + 1⟩ ∈ (cache.insert key value).entries := by
  obtain ⟨dropped, hperm, hlength, holder⟩ := insert_split h key value
  have hnew : (⟨key, value, cache.clock + 1⟩ : Entry κ α) ∈ dropped ++ (cache.insert key value).entries :=
    hperm.mem_iff.2 (List.mem_cons_self ..)
  rcases List.mem_append.1 hnew with hdropped | hkept
  · -- not all entries are dropped, and those that are kept would be later than the latest
    obtain ⟨kept, hkept⟩ : ∃ kept, kept ∈ (cache.insert key value).entries := by
      refine List.exists_mem_of_length_pos ?_
      have htotal := hperm.length_eq
      have hpositive : 0 < dropped.length := List.length_pos_of_mem hdropped
      rw [List.length_append] at htotal
      split at hlength
      · omega
      · omega
    have hlater := holder _ hdropped kept hkept
    have hpast := (orderly_joined h key value).past kept (hperm.mem_iff.1 (List.mem_append_right _ hkept))
    exact absurd hlater (Nat.not_lt.2 hpast)
  · exact hkept

omit [LawfulBEq κ] in
theorem insert_clock (cache : Cache κ α) (key : κ) (value : α) :
    (cache.insert key value).clock = cache.clock + 1 := by
  unfold insert
  dsimp only
  split <;> rfl

omit [LawfulBEq κ] in
theorem insert_capacity (cache : Cache κ α) (key : κ) (value : α) :
    (cache.insert key value).capacity = cache.capacity := by
  unfold insert
  dsimp only
  split <;> rfl

theorem mem_joined_of_mem_insert (h : cache.Orderly) {entry : Entry κ α}
    (hmem : entry ∈ (cache.insert key value).entries) : entry ∈ cache.joined key value := by
  obtain ⟨dropped, hperm, -, -⟩ := insert_split h key value
  exact hperm.mem_iff.1 (List.mem_append_right _ hmem)

theorem orderly_insert (h : cache.Orderly) (key : κ) (value : α) : (cache.insert key value).Orderly := by
  have hjoined := orderly_joined h key value
  obtain ⟨dropped, hperm, -, -⟩ := insert_split h key value
  have hkeys := ((hperm.map Entry.key).nodup_iff).2 hjoined.keys
  have hmoments := ((hperm.map Entry.accessed).nodup_iff).2 hjoined.moments
  rw [List.map_append] at hkeys hmoments
  refine ⟨(List.nodup_append.1 hkeys).2.1, (List.nodup_append.1 hmoments).2.1, fun entry hmem => ?_⟩
  rw [insert_clock]
  exact hjoined.past entry (mem_joined_of_mem_insert h hmem)

omit [LawfulBEq κ] in
/-- A new moment of access changes nothing else. -/
theorem map_accessed {β : Type} (f : Entry κ α → β) (hf : ∀ e moment, f { e with accessed := moment } = f e)
    {entries : List (Entry κ α)} {moment : Nat} :
    (entries.map fun e => if e.key == key then { e with accessed := moment } else e).map f =
      entries.map f := by
  rw [List.map_map]
  refine List.map_congr_left fun e _ => ?_
  dsimp only [Function.comp]
  split
  · exact hf e moment
  · rfl

theorem orderly_lookupIf (h : cache.Orderly) (accept : α → Bool) (key : κ) :
    (cache.lookupIf accept key).2.Orderly := by
  cases hfound : cache.find? key with
  | none =>
      rw [lookupIf_missed hfound]
      exact ⟨h.keys, h.moments, fun entry hmem => Nat.le_succ_of_le (h.past entry hmem)⟩
  | some entry =>
      cases haccept : accept entry.value with
      | false =>
          have herased := orderly_erase h key
          rw [lookupIf_rejected hfound haccept]
          exact ⟨herased.keys, herased.moments, fun entry hmem => Nat.le_succ_of_le (herased.past entry hmem)⟩
      | true =>
          rw [lookupIf_accepted hfound haccept]
          refine ⟨?_, ?_, fun entry hmem => ?_⟩
          · rw [map_accessed Entry.key fun _ _ => rfl]
            exact h.keys
          · -- only the entry that is found has the new moment
            rw [List.map_map]
            refine List.Nodup.map_on (fun e he f hf heq => ?_) (List.Nodup.of_map _ h.keys)
            have hepast := h.past e he
            have hfpast := h.past f hf
            dsimp only [Function.comp] at heq
            split at heq
            next hekey =>
              split at heq
              next hfkey =>
                exact List.inj_on_of_nodup_map h.keys he hf ((eq_of_beq hekey).trans (eq_of_beq hfkey).symm)
              next => exact absurd hfpast (by dsimp only at heq; omega)
            next =>
              split at heq
              next => exact absurd hepast (by dsimp only at heq; omega)
              next => exact List.inj_on_of_nodup_map h.moments he hf heq
          · obtain ⟨before, hbefore, rfl⟩ := List.mem_map.1 hmem
            have hpast := h.past before hbefore
            dsimp only
            split
            · exact Nat.le_refl _
            · exact Nat.le_succ_of_le hpast

theorem orderly_apply (h : cache.Orderly) (operation : Operation κ α) :
    (operation.apply cache).Orderly := by
  cases operation with
  | look accept key => exact orderly_lookupIf h accept key
  | insert key value => exact orderly_insert h key value
  | erase key => exact orderly_erase h key
  | filterKeys keep =>
      exact ⟨h.keys.sublist (List.filter_sublist.map _), h.moments.sublist (List.filter_sublist.map _),
        fun entry hmem => h.past entry (List.mem_filter.1 hmem).1⟩
  | clear => exact ⟨List.nodup_nil, List.nodup_nil, fun _ hmem => absurd hmem List.not_mem_nil⟩

theorem orderly_after (capacity : Nat) (history : History κ α) : (after capacity history).Orderly := by
  induction history with
  | nil => exact ⟨List.nodup_nil, List.nodup_nil, fun _ hmem => absurd hmem List.not_mem_nil⟩
  | cons operation earlier ih => exact orderly_apply ih operation

/-- An operation that accesses no key adds no entry and touches none; one that accesses a key touches the
entry of this key only. -/
theorem accesses_split (h : cache.Orderly) (operation : Operation κ α) :
    ((∀ key, operation.accesses cache key = false) ∧ (operation.apply cache).entries ⊆ cache.entries) ∨
    ∃ key, (∀ other, operation.accesses cache other = (key == other)) ∧
      ∀ entry ∈ (operation.apply cache).entries, (entry.key = key ∧ entry.accessed = cache.clock + 1) ∨
        (entry.key ≠ key ∧ entry ∈ cache.entries) := by
  cases operation with
  | look accept key =>
      simp only [Operation.accesses, Operation.apply]
      cases hfound : cache.find? key with
      | none =>
          rw [lookupIf_missed hfound]
          exact Or.inl ⟨fun _ => Bool.and_false _, List.Subset.refl _⟩
      | some found =>
          cases haccept : accept found.value with
          | false =>
              rw [lookupIf_rejected hfound haccept]
              exact Or.inl ⟨fun _ => Bool.and_false _, fun entry hmem => (mem_erase.1 hmem).1⟩
          | true =>
              rw [lookupIf_accepted hfound haccept]
              refine Or.inr ⟨key, fun _ => Bool.and_true _, fun entry hmem => ?_⟩
              obtain ⟨before, hbefore, rfl⟩ := List.mem_map.1 hmem
              split
              next hkey => exact Or.inl ⟨eq_of_beq hkey, rfl⟩
              next hkey => exact Or.inr ⟨fun heq => hkey (beq_of_eq heq), hbefore⟩
  | insert key value =>
      refine Or.inr ⟨key, fun _ => rfl, fun entry hmem => ?_⟩
      rcases List.mem_cons.1 (mem_joined_of_mem_insert h hmem) with rfl | hother
      · exact Or.inl ⟨rfl, rfl⟩
      · exact Or.inr (mem_erase.1 hother).symm
  | erase key => exact Or.inl ⟨fun _ => rfl, fun entry hmem => (mem_erase.1 hmem).1⟩
  | filterKeys keep => exact Or.inl ⟨fun _ => rfl, fun entry hmem => (List.mem_filter.1 hmem).1⟩
  | clear => exact Or.inl ⟨fun _ => rfl, List.nil_subset _⟩

/-- The moments of access put the keys in the order of their ages. -/
theorem age_lt_of_accessed_lt (capacity : Nat) (history : History κ α) {old recent : Entry κ α}
    (hold : old ∈ (after capacity history).entries) (hrecent : recent ∈ (after capacity history).entries)
    (hlt : old.accessed < recent.accessed) :
    age capacity recent.key history < age capacity old.key history := by
  induction history generalizing old recent with
  | nil => exact absurd hold List.not_mem_nil
  | cons operation earlier ih =>
      have orderly := orderly_after capacity earlier
      unfold age
      rcases accesses_split orderly operation with ⟨hnone, hsubset⟩ | ⟨key, hkey, hsplit⟩
      · rw [hnone, hnone]
        exact Nat.succ_lt_succ (ih (hsubset hold) (hsubset hrecent) hlt)
      · rw [hkey, hkey]
        rcases hsplit recent hrecent with ⟨hrecentkey, hnow⟩ | ⟨hrecentkey, hrecentmem⟩
        · rcases hsplit old hold with ⟨-, hnow'⟩ | ⟨holdkey, -⟩
          · omega
          · rw [if_pos (beq_of_eq hrecentkey.symm), beq_false_of_ne holdkey.symm]
            exact Nat.zero_lt_succ _
        · rcases hsplit old hold with ⟨-, hnow⟩ | ⟨holdkey, holdmem⟩
          · have := orderly.past recent hrecentmem
            omega
          · rw [beq_false_of_ne hrecentkey.symm, beq_false_of_ne holdkey.symm]
            exact Nat.succ_lt_succ (ih holdmem hrecentmem hlt)

omit [LawfulBEq κ] in
theorem age_insert (capacity : Nat) (history : History κ α) (key other : κ) (value : α) :
    age capacity other (.insert key value :: history) =
      if key == other then 0 else age capacity other history + 1 := rfl

/-- This holds too of what an insertion finds no room for. -/
theorem age_insert_lt (capacity : Nat) (history : History κ α) {key : κ} {value : α} {old recent : Entry κ α}
    (hold : old ∈ (after capacity history).joined key value)
    (hrecent : recent ∈ (after capacity history).joined key value) (hlt : old.accessed < recent.accessed) :
    age capacity recent.key (.insert key value :: history) <
      age capacity old.key (.insert key value :: history) := by
  have orderly := orderly_after capacity history
  rw [age_insert, age_insert]
  rcases List.mem_cons.1 hold with rfl | hold
  · have hpast := (orderly_joined orderly key value).past recent hrecent
    exact absurd hlt (Nat.not_lt.2 hpast)
  · obtain ⟨hold, holdkey⟩ := mem_erase.1 hold
    rw [beq_false_of_ne holdkey.symm]
    rcases List.mem_cons.1 hrecent with rfl | hrecent
    · rw [beq_self_eq_true, if_pos rfl]
      exact Nat.zero_lt_succ _
    · obtain ⟨hrecent, hrecentkey⟩ := mem_erase.1 hrecent
      rw [beq_false_of_ne hrecentkey.symm]
      exact Nat.succ_lt_succ (age_lt_of_accessed_lt capacity history hold hrecent hlt)

/-- After an operation a key has the value that was just inserted under it, or else the one that it had
before, unless the operation inserts or drops something there. -/
theorem mem_contents_apply (h : cache.Orderly) (operation : Operation κ α) :
    (key, value) ∈ (operation.apply cache).contents ↔
      operation = .insert key value ∨
        (key, value) ∈ cache.contents ∧ operation.inserts key = false ∧
          operation.drops cache key = false := by
  cases operation with
  | look accept other =>
      unfold Operation.apply Operation.drops
      simp only [reduceCtorEq, false_or, Operation.inserts, true_and, Bool.and_eq_false_imp, beq_iff_eq]
      cases hfound : cache.find? other with
      | none =>
          rw [lookupIf_missed hfound]
          refine ⟨fun hmem => ⟨hmem, ?_⟩, And.left⟩
          rintro rfl
          obtain ⟨moment, hentry⟩ := mem_contents.1 hmem
          exact absurd rfl (find?_isNone_iff.1 (hfound ▸ rfl) _ hentry)
      | some found =>
          cases haccept : accept found.value with
          | false =>
              rw [lookupIf_rejected hfound haccept]
              simp only [mem_contents, mem_erase, exists_and_right, Option.isNone_none, reduceCtorEq, imp_false]
              exact and_congr_right' ⟨Ne.symm, Ne.symm⟩
          | true =>
              rw [lookupIf_accepted hfound haccept]
              unfold contents
              rw [map_accessed (fun entry => (entry.key, entry.value)) fun _ _ => rfl]
              exact ⟨fun hmem => ⟨hmem, fun _ => rfl⟩, And.left⟩
  | insert other new =>
      change (key, value) ∈ (cache.insert other new).contents ↔ _
      simp only [Operation.insert.injEq, Operation.inserts, Operation.drops, beq_eq_false_iff_ne]
      constructor
      · intro hmem
        obtain ⟨moment, hentry⟩ := mem_contents.1 hmem
        rcases List.mem_cons.1 (mem_joined_of_mem_insert h hentry) with heq | hother
        · cases heq
          exact Or.inl ⟨rfl, rfl⟩
        · obtain ⟨hold, hkey⟩ := mem_erase.1 hother
          refine Or.inr ⟨mem_contents.2 ⟨moment, hold⟩, Ne.symm hkey, ?_⟩
          rw [← Bool.not_eq_true, find?_isNone_iff]
          exact fun hgone => hgone _ hentry rfl
      · rintro (⟨rfl, rfl⟩ | ⟨hmem, hkey, hkept⟩)
        · exact mem_contents.2 ⟨_, mem_insert h other new⟩
        · obtain ⟨moment, hold⟩ := mem_contents.1 hmem
          rw [← Bool.not_eq_true, find?_isNone_iff, not_forall₂] at hkept
          obtain ⟨entry, hentry, heq⟩ := hkept
          rw [ne_eq, not_not] at heq
          rcases List.mem_cons.1 (mem_joined_of_mem_insert h hentry) with rfl | hother
          · exact absurd heq hkey
          · have hsame : entry = ⟨key, value, moment⟩ :=
              List.inj_on_of_nodup_map h.keys (mem_erase.1 hother).1 hold heq
            exact mem_contents.2 ⟨moment, hsame ▸ hentry⟩
  | erase other =>
      change (key, value) ∈ (cache.erase other).contents ↔ _
      simp only [mem_contents, mem_erase, exists_and_right, reduceCtorEq, false_or, Operation.inserts,
        Operation.drops, true_and, beq_eq_false_iff_ne]
      exact and_congr_right' ⟨Ne.symm, Ne.symm⟩
  | filterKeys keep =>
      change (key, value) ∈ (cache.filterKeys keep).2.contents ↔ _
      simp [mem_contents, filterKeys, Operation.inserts, Operation.drops]
  | clear => simp [mem_contents, Operation.apply, clear, Operation.inserts, Operation.drops]

end Orderly

section Latest

variable {capacity : Nat} {history : History κ α} {operation : Operation κ α} {key : κ} {value : α}

theorem latest_cons_iff :
    Latest capacity (operation :: history) key value ↔
      operation = .insert key value ∨
        Latest capacity history key value ∧ operation.inserts key = false ∧
          operation.drops (after capacity history) key = false := by
  constructor
  · rintro ⟨later, earlier, hhistory, hinserts, hdrops⟩
    cases later with
    | nil => exact Or.inl (List.cons.inj hhistory).1
    | cons latest later =>
        obtain ⟨rfl, rfl⟩ := List.cons.inj hhistory
        obtain ⟨hlatest, hlater⟩ := List.forall_mem_cons.1 hinserts
        refine Or.inr ⟨⟨later, earlier, rfl, hlater, fun last other first heq => ?_⟩, hlatest,
          hdrops [] _ later rfl⟩
        exact hdrops (operation :: last) other first (congrArg (operation :: ·) heq)
  · rintro (rfl | ⟨⟨later, earlier, rfl, hinserts, hdrops⟩, hlatest, hdrop⟩)
    · refine ⟨[], history, rfl, fun _ hmem => absurd hmem List.not_mem_nil, fun last _ first hnil => ?_⟩
      exact absurd hnil.symm (List.append_ne_nil_of_right_ne_nil last (List.cons_ne_nil _ _))
    · refine ⟨operation :: later, earlier, rfl, List.forall_mem_cons.2 ⟨hlatest, hinserts⟩, ?_⟩
      intro last other first heq
      cases last with
      | nil =>
          obtain ⟨rfl, rfl⟩ := List.cons.inj heq
          exact hdrop
      | cons latest last => exact hdrops last other first (List.cons.inj heq).2

/-- What is kept is what was inserted last and not dropped since. -/
theorem mem_contents_after [LawfulBEq κ] :
    (key, value) ∈ (after capacity history).contents ↔ Latest capacity history key value := by
  induction history with
  | nil =>
      refine ⟨fun hmem => absurd hmem List.not_mem_nil, ?_⟩
      rintro ⟨later, earlier, hnil, -⟩
      exact absurd hnil.symm (List.append_ne_nil_of_right_ne_nil later (List.cons_ne_nil _ _))
  | cons operation earlier ih =>
      rw [latest_cons_iff, ← ih]
      exact mem_contents_apply (orderly_after capacity earlier) operation

end Latest

end Stencil.Cache
