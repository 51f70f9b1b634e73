import Stencil.Proofs.Caching.Recency

/-!
A cache keeps to its bound, drops what was accessed longest ago, and gives what was inserted last. Its counters
tell of the looks and of the entries that had to go since it was cleared.
-/

namespace Stencil.Cache

variable {κ α : Type} [BEq κ]

section Counters

variable {cache : Cache κ α}

theorem capacity_apply (operation : Operation κ α) :
    (operation.apply cache).capacity = cache.capacity := by
  cases operation with
  | look accept key =>
      change (cache.lookupIf accept key).2.capacity = _
      unfold lookupIf
      dsimp only
      split
      · rfl
      · split <;> rfl
  | insert key value => exact insert_capacity cache key value
  | erase | filterKeys | clear => rfl

theorem capacity_after (capacity : Nat) (history : History κ α) :
    (after capacity history).capacity = capacity := by
  induction history with
  | nil => rfl
  | cons operation earlier ih => exact (capacity_apply operation).trans ih

/-- Of hits and misses an operation counts one together if it is a look, and none otherwise. -/
theorem looks_apply (operation : Operation κ α) (hclear : operation.isClear = false) :
    (operation.apply cache).counters.hits + (operation.apply cache).counters.misses =
      cache.counters.hits + cache.counters.misses + if operation.isLook then 1 else 0 := by
  cases operation with
  | look accept key =>
      change (cache.lookupIf accept key).2.counters.hits + (cache.lookupIf accept key).2.counters.misses =
        cache.counters.hits + cache.counters.misses + 1
      unfold lookupIf
      dsimp only
      split
      · rfl
      · split
        · exact Nat.add_right_comm ..
        · rfl
  | insert key value =>
      change (cache.insert key value).counters.hits + (cache.insert key value).counters.misses = _
      unfold insert
      dsimp only
      split <;> rfl
  | erase | filterKeys => rfl
  | clear => cases hclear

theorem looks_after (capacity : Nat) (history : History κ α) :
    (after capacity history).counters.hits + (after capacity history).counters.misses = looks history := by
  induction history with
  | nil => rfl
  | cons operation earlier ih =>
      unfold looks
      rw [List.takeWhile_cons]
      cases hclear : operation.isClear with
      | true =>
          cases operation with
          | clear => rfl
          | look | insert | erase | filterKeys => cases hclear
      | false =>
          rw [Bool.not_false, if_pos rfl, List.countP_cons]
          exact (looks_apply operation hclear).trans (congrArg (· + _) ih)

theorem size_add_overflow [LawfulBEq κ] (h : cache.Orderly) (key : κ) (value : α) :
    (cache.insert key value).size + (Operation.insert key value).overflow cache =
      (cache.joined key value).length := by
  obtain ⟨dropped, hperm, -, -⟩ := insert_split h key value
  have hlength := hperm.length_eq
  rw [List.length_append] at hlength
  have hjoined : (cache.joined key value).length = (cache.erase key).size + 1 := rfl
  simp only [Operation.overflow, size] at hjoined hlength ⊢
  omega

theorem evictions_insert [LawfulBEq κ] (h : cache.Orderly) (key : κ) (value : α) :
    (cache.insert key value).counters.evictions =
      (Operation.insert key value).overflow cache + cache.counters.evictions := by
  have htotal := size_add_overflow h key value
  obtain ⟨dropped, hperm, hdropped, -⟩ := insert_split h key value
  have hlength := hperm.length_eq
  rw [List.length_append] at hlength
  have hevictions : (cache.insert key value).counters.evictions = cache.counters.evictions + dropped.length := by
    rw [hdropped]
    unfold insert joined
    dsimp only
    split
    next => rfl
    next => rfl
  rw [hevictions]
  simp only [size] at htotal
  omega

theorem evictions_after [LawfulBEq κ] (capacity : Nat) (history : History κ α) :
    (after capacity history).counters.evictions = overflows capacity history := by
  induction history with
  | nil => rfl
  | cons operation earlier ih =>
      cases operation with
      | insert key value =>
          exact (evictions_insert (orderly_after capacity earlier) key value).trans (congrArg _ ih)
      | clear => rfl
      | erase | filterKeys => exact ih.trans (Nat.zero_add _).symm
      | look accept key =>
          refine Eq.trans ?_ (ih.trans (Nat.zero_add _).symm)
          change ((after capacity earlier).lookupIf accept key).2.counters.evictions = _
          unfold lookupIf
          dsimp only
          split
          · rfl
          · split <;> rfl

end Counters

section Size

variable [LawfulBEq κ] {cache : Cache κ α}

theorem size_apply_le (h : cache.Orderly) (hsize : cache.size ≤ max cache.capacity 1)
    (operation : Operation κ α) : (operation.apply cache).size ≤ max cache.capacity 1 := by
  cases operation with
  | look accept key =>
      refine Nat.le_trans ?_ hsize
      change (cache.lookupIf accept key).2.entries.length ≤ cache.entries.length
      unfold lookupIf
      dsimp only
      split
      · exact Nat.le_refl _
      · split
        · exact Nat.le_of_eq (List.length_map ..)
        · exact List.length_filter_le ..
  | insert key value =>
      obtain ⟨dropped, hperm, hdropped, -⟩ := insert_split h key value
      have hlength := hperm.length_eq
      have herased : (cache.joined key value).length ≤ cache.size + 1 :=
        Nat.succ_le_succ (List.length_filter_le ..)
      rw [List.length_append] at hlength
      change (cache.insert key value).entries.length ≤ _
      split at hdropped
      · omega
      · omega
  | erase key => exact Nat.le_trans (List.length_filter_le ..) hsize
  | filterKeys keep => exact Nat.le_trans (List.length_filter_le ..) hsize
  | clear => exact Nat.zero_le _

theorem size_after_le (capacity : Nat) (history : History κ α) :
    (after capacity history).size ≤ max capacity 1 := by
  induction history with
  | nil => exact Nat.zero_le _
  | cons operation earlier ih =>
      have hcapacity := capacity_after capacity earlier
      have hsize : (after capacity earlier).size ≤ max (after capacity earlier).capacity 1 := by
        rw [hcapacity]
        exact ih
      exact Nat.le_trans (size_apply_le (orderly_after capacity earlier) hsize operation)
        (Nat.le_of_eq (congrArg (max · 1) hcapacity))

theorem lookupIf_eq_some_iff (h : cache.Orderly) {accept : α → Bool} {key : κ} {value : α} :
    (cache.lookupIf accept key).1 = some value ↔ accept value = true ∧ (key, value) ∈ cache.contents := by
  have hcontents : (key, value) ∈ cache.contents ↔ (cache.find? key).map Entry.value = some value := by
    rw [mem_contents, Option.map_eq_some_iff]
    constructor
    · rintro ⟨moment, hmem⟩
      exact ⟨_, (find?_eq_some_iff h).2 ⟨hmem, rfl⟩, rfl⟩
    · rintro ⟨⟨_, _, moment⟩, hfound, rfl⟩
      obtain ⟨hmem, rfl⟩ := (find?_eq_some_iff h).1 hfound
      exact ⟨moment, hmem⟩
  rw [hcontents]
  cases hfound : cache.find? key with
  | none =>
      rw [lookupIf_missed hfound]
      exact ⟨fun hnone => (nomatch hnone), fun hnone => (nomatch hnone.2)⟩
  | some found =>
      rw [Option.map_some, Option.some.injEq]
      cases haccept : accept found.value with
      | false =>
          rw [lookupIf_rejected hfound haccept]
          refine ⟨fun hnone => (nomatch hnone), ?_⟩
          rintro ⟨haccepted, rfl⟩
          cases haccept.symm.trans haccepted
      | true =>
          rw [lookupIf_accepted hfound haccept, Option.some.injEq]
          exact ⟨fun heq => ⟨heq ▸ haccept, heq⟩, And.right⟩

end Size

/-- After any history a cache keeps to its bound, and what is inserted next is found. An insertion drops nothing
while there is room, and otherwise a fifth of the entries, all of them accessed before those that it keeps. A look
finds exactly the value that was inserted last and not dropped since, if it is accepted. Hits and misses together
are the looks since the latest clearing, and the evictions are the entries for which there was no room. -/
theorem bounded_and_recent [LawfulBEq κ] (capacity : Nat) (history : History κ α) :
    let cache := after capacity history
    cache.size ≤ max capacity 1 ∧
    (∀ key value, ((after capacity (.insert key value :: history)).lookup key).1 = some value) ∧
    (∀ key value,
      let later : History κ α := .insert key value :: history
      let held := (key, value) :: (cache.erase key).contents
      ∃ dropped, (dropped ++ (after capacity later).contents).Perm held ∧
        dropped.length = (if held.length ≤ max capacity 1 then 0 else max (held.length / 5) 1) ∧
        ∀ old ∈ dropped, ∀ kept ∈ (after capacity later).contents,
          age capacity kept.1 later < age capacity old.1 later) ∧
    (∀ accept key value, (cache.lookupIf accept key).1 = some value ↔
      accept value = true ∧ Latest capacity history key value) ∧
    cache.counters.hits + cache.counters.misses = looks history ∧
    cache.counters.evictions = overflows capacity history := by
  intro cache
  have orderly : cache.Orderly := orderly_after capacity history
  refine ⟨size_after_le capacity history, fun key value => ?_, fun key value => ?_,
    fun accept key value => ?_, looks_after capacity history, evictions_after capacity history⟩
  · have hnew := mem_contents.2 ⟨_, mem_insert orderly key value⟩
    exact (lookupIf_eq_some_iff (orderly_insert orderly key value)).2 ⟨rfl, hnew⟩
  · intro later held
    obtain ⟨dropped, hperm, hdropped, holder⟩ := insert_split orderly key value
    have hheld : held = (cache.joined key value).map fun entry => (entry.key, entry.value) := rfl
    refine ⟨dropped.map fun entry => (entry.key, entry.value), ?_, ?_, ?_⟩
    · rw [hheld]
      exact (List.map_append ▸ hperm.map _)
    · rw [List.length_map, hdropped, hheld, List.length_map, capacity_after]
    · intro old hold kept hkept
      obtain ⟨gone, hgone, rfl⟩ := List.mem_map.1 hold
      obtain ⟨entry, hentry, rfl⟩ := List.mem_map.1 hkept
      exact age_insert_lt capacity history (hperm.mem_iff.1 (List.mem_append_left _ hgone))
        (hperm.mem_iff.1 (List.mem_append_right _ hentry)) (holder gone hgone entry hentry)
  · rw [lookupIf_eq_some_iff orderly, mem_contents_after]

/-- Where a look came between, the entry inserted last can be the one that has to go. -/
theorem bounded_and_recent_after_look :
    let history : History String Nat := [.look (fun _ => true) "a", .insert "b" 2, .insert "a" 1]
    (after 2 (.insert "c" 3 :: history)).contents = [("a", 1), ("c", 3)] ∧
    (∃ dropped, (dropped ++ (after 2 (.insert "c" 3 :: history)).contents).Perm
        [("c", 3), ("b", 2), ("a", 1)] ∧ dropped.length = 1 ∧
      ∀ old ∈ dropped, ∀ kept ∈ (after 2 (.insert "c" 3 :: history)).contents,
        age 2 kept.1 (.insert "c" 3 :: history) < age 2 old.1 (.insert "c" 3 :: history)) ∧
    ((after 2 history).lookup "a").1 = some 1 := by
  intro history
  obtain ⟨-, -, hdropped, hfound, -, -⟩ := bounded_and_recent 2 history
  have hheld : ((after 2 history).erase "c").contents = [("b", 2), ("a", 1)] := by decide +kernel
  refine ⟨?_, ?_, ?_⟩
  · simp [history, after, Operation.apply, insert, dropOldest, contents, lookupIf, find?, erase,
      List.mergeSort, List.MergeSort.Internal.splitInTwo]
  · have hsplit := hdropped "c" 3
    dsimp only at hsplit
    rw [hheld] at hsplit
    exact hsplit
  · exact (hfound _ "a" 1).2 ⟨rfl, mem_contents_after.1 (by decide +kernel)⟩

end Stencil.Cache
