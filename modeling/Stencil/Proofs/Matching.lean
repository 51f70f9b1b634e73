import Mathlib.Data.List.TakeWhile
import Stencil.Text.Case
import Stencil.Text.Pattern

/-!
What a search cannot miss. A match is defined by the atoms of a way alone, without attempts that are
followed side by side. Where a way has a match, the attempts before each of its characters hold one
that the match can go on with, so a search that finds nothing means that no way matches anywhere. And
each attempt stands for a match that has been made up to here, so what a search finds is a match.
-/

namespace Stencil.Text

/-- A match of a way at the front of a text with a character before it, and what it leaves. -/
inductive Way.Matches : Option Char → Way → List Char → List Char → Prop where
  | done (before : Option Char) (s : List Char) : Matches before [] s s
  | one {before : Option Char} {cls : Char → Bool} {c : Char} {way : Way} {s after : List Char}
      (hc : cls c = true) (behind : Matches (some c) way s after) :
      Matches before (.one cls :: way) (c :: s) after
  | stop {before : Option Char} {cls : Char → Bool} {way : Way} {s after : List Char}
      (behind : Matches before way s after) : Matches before (.run cls :: way) s after
  | more {before : Option Char} {cls : Char → Bool} {c : Char} {way : Way} {s after : List Char}
      (hc : cls c = true) (behind : Matches (some c) (.run cls :: way) s after) :
      Matches before (.run cls :: way) (c :: s) after
  | bound {before : Option Char} {way : Way} {s after : List Char}
      (here : wordBound before s.head? = true) (behind : Matches before way s after) :
      Matches before (.bound :: way) s after

theorem Way.matches_nil_iff {before : Option Char} {s after : List Char} :
    Way.Matches before [] s after ↔ s = after := by
  constructor
  · intro h
    cases h
    rfl
  · rintro rfl
    exact .done before s

theorem Way.matches_one_iff {before : Option Char} {cls : Char → Bool} {way : Way} {s after : List Char} :
    Way.Matches before (.one cls :: way) s after ↔
      ∃ c rest, s = c :: rest ∧ cls c = true ∧ Way.Matches (some c) way rest after := by
  constructor
  · intro h
    cases h with
    | one hc behind => exact ⟨_, _, rfl, hc, behind⟩
  · rintro ⟨c, rest, rfl, hc, behind⟩
    exact .one hc behind

theorem getLast?_cons_or (c : Char) (s : List Char) (before : Option Char) :
    (c :: s).getLast?.or before = s.getLast?.or (some c) := by
  rw [List.getLast?_cons, Option.some_or]
  cases s.getLast? with
  | none => rfl
  | some last => rfl

/-- A run takes any number of characters of its class. -/
theorem Way.matches_run_iff {before : Option Char} {cls : Char → Bool} {way : Way} {s after : List Char} :
    Way.Matches before (.run cls :: way) s after ↔
      ∃ taken rest, s = taken ++ rest ∧ (∀ c ∈ taken, cls c = true) ∧
        Way.Matches (taken.getLast?.or before) way rest after := by
  constructor
  · intro h
    generalize hway : Atom.run cls :: way = whole at h
    induction h with
    | stop behind =>
        cases hway
        exact ⟨[], _, rfl, fun c hc => absurd hc List.not_mem_nil, behind⟩
    | @more before cls c way s after hc behind ih =>
        cases hway
        obtain ⟨taken, rest, rfl, htaken, hrest⟩ := ih rfl
        refine ⟨c :: taken, rest, rfl, List.forall_mem_cons.2 ⟨hc, htaken⟩, ?_⟩
        rw [getLast?_cons_or]
        exact hrest
    | _ => cases hway
  · rintro ⟨taken, rest, rfl, htaken, hrest⟩
    induction taken generalizing before with
    | nil => exact .stop hrest
    | cons c taken ih =>
        obtain ⟨hc, htaken⟩ := List.forall_mem_cons.1 htaken
        rw [getLast?_cons_or] at hrest
        exact .more hc (ih htaken hrest)

/-- A word is matched in whatever case it is written. -/
theorem matches_word {word name rest after : List Char} (h : asciiLower name = word)
    {before : Option Char} {way : Way} (behind : Way.Matches (name.getLast?.or before) way rest after) :
    Way.Matches before (word.map (fun letter => Atom.one (sameFold letter)) ++ way) (name ++ rest)
      after := by
  induction name generalizing before word with
  | nil =>
      obtain rfl : word = [] := h.symm
      rw [List.getLast?_nil, Option.none_or] at behind
      exact behind
  | cons c name ih =>
      obtain rfl : word = c.toLower :: asciiLower name := h.symm
      have hfold : sameFold c.toLower c = true := by simp [sameFold]
      rw [getLast?_cons_or] at behind
      exact .one hfold (ih rfl behind)

/-- A match ends here, or goes on with the next character from a place that is reached here. -/
theorem reach_of_matches {before : Option Char} {way : Way} {s after : List Char}
    (h : Way.Matches before way s after) : [] ∈ reach before s.head? way ∨
      ∃ c rest left, s = c :: rest ∧ left ∈ reach before s.head? way ∧
        Way.Matches (some c) (afterNext left) rest after := by
  induction h with
  | done before s => exact Or.inl (List.mem_singleton_self [])
  | @one before cls c way s after hc behind ih =>
      refine Or.inr ⟨c, s, .one cls :: way, rfl, ?_, behind⟩
      rw [reach, List.head?_cons, Option.any_some, hc]
      exact List.mem_singleton_self _
  | @stop before cls way s after behind ih =>
      have hlater : ∀ left ∈ reach before s.head? way,
          left ∈ reach before s.head? (.run cls :: way) := by
        intro left hleft
        rw [reach]
        split
        · exact List.mem_cons_of_mem _ hleft
        · exact hleft
      rcases ih with hdone | ⟨c, rest, left, hs, hleft, hbehind⟩
      · exact Or.inl (hlater [] hdone)
      · exact Or.inr ⟨c, rest, left, hs, hlater left hleft, hbehind⟩
  | @more before cls c way s after hc behind ih =>
      refine Or.inr ⟨c, s, .run cls :: way, rfl, ?_, behind⟩
      rw [reach, List.head?_cons, Option.any_some, hc]
      exact List.mem_cons_self ..
  | @bound before way s after here behind ih =>
      have hkept : ∀ left ∈ reach before s.head? way, left ∈ reach before s.head? (.bound :: way) :=
        fun left hleft => List.mem_filter.2 ⟨hleft, here⟩
      rcases ih with hdone | ⟨c, rest, left, hs, hleft, hbehind⟩
      · exact Or.inl (hkept [] hdone)
      · exact Or.inr ⟨c, rest, left, hs, hkept left hleft, hbehind⟩

theorem suffix_of_mem_reach {before next : Option Char} {way left : Way}
    (h : left ∈ reach before next way) : left <:+ way := by
  induction way with
  | nil =>
      obtain rfl := List.mem_singleton.1 h
      exact List.suffix_refl []
  | cons atom rest ih =>
      cases atom with
      | one cls =>
          rw [reach] at h
          split at h
          · obtain rfl := List.mem_singleton.1 h
            exact List.suffix_refl _
          · exact absurd h List.not_mem_nil
      | run cls =>
          rw [reach] at h
          split at h
          · rcases List.mem_cons.1 h with rfl | hlater
            · exact List.suffix_refl _
            · exact (ih hlater).trans (List.suffix_cons ..)
          · exact (ih h).trans (List.suffix_cons ..)
      | bound =>
          rw [reach] at h
          exact (ih (List.mem_filter.1 h).1).trans (List.suffix_cons ..)

theorem afterNext_suffix (way : Way) : afterNext way <:+ way := by
  unfold afterNext
  split
  · exact List.suffix_cons ..
  · exact List.suffix_refl _

namespace Attempt

/-- An attempt that follows a way of a pattern. -/
def Follows (pattern : Pattern) (attempt : Attempt) : Prop :=
  ∃ atoms, pattern[attempt.way]? = some atoms ∧ attempt.left <:+ atoms

theorem Follows.reached {pattern : Pattern} {attempt : Attempt} (h : attempt.Follows pattern)
    {before next : Option Char} : ∀ other ∈ attempt.reached before next, other.Follows pattern := by
  intro other hmem
  obtain ⟨left, hleft, rfl⟩ := List.mem_map.1 hmem
  obtain ⟨atoms, hatoms, hsuffix⟩ := h
  exact ⟨atoms, hatoms, (suffix_of_mem_reach hleft).trans hsuffix⟩

theorem Follows.advance {pattern : Pattern} {attempt : Attempt} (h : attempt.Follows pattern) :
    attempt.advance.Follows pattern := by
  obtain ⟨atoms, hatoms, hsuffix⟩ := h
  exact ⟨atoms, hatoms, (afterNext_suffix attempt.left).trans hsuffix⟩

/-- Attempts that go on in the same way have the same left. -/
theorem Follows.left_eq {pattern : Pattern} {first second : Attempt} (h : first.Follows pattern)
    (h' : second.Follows pattern) (same : first.sameWay second = true) :
    first.left = second.left := by
  obtain ⟨hway, hlength⟩ := Bool.and_eq_true_iff.1 same
  obtain ⟨atoms, hatoms, hsuffix⟩ := h
  obtain ⟨atoms', hatoms', hsuffix'⟩ := h'
  rw [eq_of_beq hway, hatoms'] at hatoms
  obtain rfl := Option.some.inj hatoms
  rcases List.suffix_or_suffix_of_suffix hsuffix hsuffix' with hshort | hshort
  · exact hshort.eq_of_length (eq_of_beq hlength)
  · exact (hshort.eq_of_length (eq_of_beq hlength).symm).symm

theorem sameWay_self (attempt : Attempt) : attempt.sameWay attempt = true := by
  rw [sameWay, beq_self_eq_true, beq_self_eq_true]
  rfl

theorem subset_distinct (kept attempts : List Attempt) : kept ⊆ distinct kept attempts := by
  induction attempts generalizing kept with
  | nil => exact fun attempt hmem => List.mem_reverse.2 hmem
  | cons first rest ih =>
      rw [distinct]
      split
      · exact ih kept
      · exact fun attempt hmem => ih _ (List.mem_cons_of_mem _ hmem)

theorem distinct_subset (kept attempts : List Attempt) : distinct kept attempts ⊆ kept ++ attempts := by
  induction attempts generalizing kept with
  | nil =>
      intro attempt hmem
      rw [List.append_nil]
      exact List.mem_reverse.1 hmem
  | cons first rest ih =>
      intro attempt hmem
      rw [distinct] at hmem
      have hlater : attempt ∈ kept ++ rest ∨ attempt = first := by
        split at hmem
        · exact Or.inl (ih kept hmem)
        · rcases List.mem_append.1 (ih _ hmem) with hkept | hrest
          · rcases List.mem_cons.1 hkept with rfl | hkept
            · exact Or.inr rfl
            · exact Or.inl (List.mem_append_left _ hkept)
          · exact Or.inl (List.mem_append_right _ hrest)
      rcases hlater with hlater | rfl
      · rcases List.mem_append.1 hlater with hkept | hrest
        · exact List.mem_append_left _ hkept
        · exact List.mem_append_right _ (List.mem_cons_of_mem _ hrest)
      · exact List.mem_append_right _ (List.mem_cons_self ..)

/-- Of the attempts that go on in the same way one is kept. -/
theorem exists_mem_distinct (kept : List Attempt) {attempts : List Attempt} {attempt : Attempt}
    (hmem : attempt ∈ attempts) :
    ∃ other ∈ distinct kept attempts, attempt.sameWay other = true := by
  induction attempts generalizing kept with
  | nil => exact absurd hmem List.not_mem_nil
  | cons first rest ih =>
      rw [distinct]
      rcases List.mem_cons.1 hmem with rfl | hrest
      · split
        next hany =>
          obtain ⟨other, hother, same⟩ := List.any_eq_true.1 hany
          exact ⟨other, subset_distinct kept rest hother, same⟩
        next => exact ⟨attempt, subset_distinct _ rest (List.mem_cons_self ..), sameWay_self attempt⟩
      · split
        · exact ih kept hrest
        · exact ih _ hrest

end Attempt

variable {pattern : Pattern}

theorem Attempt.follows_reached {attempts : List Attempt}
    (follows : ∀ attempt ∈ attempts, attempt.Follows pattern) (before next : Option Char) :
    ∀ other ∈ attempts.flatMap (Attempt.reached before next), other.Follows pattern := by
  intro other hmem
  obtain ⟨attempt, hattempt, hother⟩ := List.mem_flatMap.1 hmem
  exact (follows attempt hattempt).reached other hother

/-- The attempts that are open at a place: those that are followed, and one for each way. -/
def Pattern.open (pattern : Pattern) (place : Nat) (attempts : List Attempt) : List Attempt :=
  attempts ++ pattern.zipIdx.map fun (atoms, way) => ⟨way, atoms, place⟩

theorem Pattern.reached_open (pattern : Pattern) (place : Nat) (attempts : List Attempt)
    (before next : Option Char) :
    (pattern.open place attempts).flatMap (Attempt.reached before next) =
      attempts.flatMap (Attempt.reached before next) ++ pattern.begin place before next := by
  rw [Pattern.open, List.flatMap_append, List.flatMap_map, Pattern.begin]

theorem Pattern.follows_open {place : Nat} {attempts : List Attempt}
    (follows : ∀ attempt ∈ attempts, attempt.Follows pattern) :
    ∀ attempt ∈ pattern.open place attempts, attempt.Follows pattern := by
  intro attempt hmem
  rcases List.mem_append.1 hmem with hmem | hmem
  · exact follows attempt hmem
  · obtain ⟨⟨atoms, way⟩, hway, rfl⟩ := List.mem_map.1 hmem
    exact ⟨atoms, List.mem_zipIdx_iff_getElem?.1 hway, List.suffix_refl _⟩

/-- Whether an attempt has a match at the front of a text. -/
def Attempt.CanMatch (before : Option Char) (s : List Char) (attempt : Attempt) : Prop :=
  ∃ after, Way.Matches before attempt.left s after

/-- An attempt with a match at a place where none is done has one among those that are reached. -/
theorem exists_reached {before : Option Char} {s : List Char} {attempts : List Attempt}
    {attempt : Attempt} (hmem : attempt ∈ attempts) (matches' : attempt.CanMatch before s)
    (pending : ∀ other ∈ attempts.flatMap (Attempt.reached before s.head?), other.isDone = false) :
    ∃ c rest, s = c :: rest ∧ ∃ other ∈ attempts.flatMap (Attempt.reached before s.head?),
      other.advance.CanMatch (some c) rest := by
  obtain ⟨after, hmatches⟩ := matches'
  rcases reach_of_matches hmatches with hdone | ⟨c, rest, left, rfl, hleft, hbehind⟩
  · have hother : { attempt with left := [] } ∈ attempts.flatMap (Attempt.reached before s.head?) :=
      List.mem_flatMap.2 ⟨attempt, hmem, List.mem_map_of_mem hdone⟩
    cases pending _ hother
  · refine ⟨c, rest, rfl, { attempt with left }, ?_, after, hbehind⟩
    exact List.mem_flatMap.2 ⟨attempt, hmem, List.mem_map_of_mem hleft⟩

/-- What is found is not lost again. -/
theorem Pattern.search_isSome {place : Nat} {before : Option Char} {attempts : List Attempt}
    {found : Option (Nat × Nat)} (h : found.isSome = true) (s : List Char) :
    (pattern.search place before attempts found s).isSome = true := by
  induction s generalizing place before attempts found with
  | nil => rw [Pattern.search, Option.isSome_or, h, Bool.or_true]
  | cons c rest ih =>
      have hlater : ∀ better : Option (Nat × Nat), (better.or found).isSome = true := by
        intro better
        rw [Option.isSome_or, h, Bool.or_true]
      rw [Pattern.search]
      simp only [h, if_true]
      split
      · exact hlater _
      · exact ih (hlater _)

theorem Pattern.not_matches_of_open {place : Nat} {before : Option Char} {attempts : List Attempt}
    {s : List Char} (h : ∀ attempt ∈ pattern.open place attempts, ¬ attempt.CanMatch before s)
    {way : Way} (hway : way ∈ pattern) (after : List Char) : ¬ Way.Matches before way s after := by
  intro hmatches
  obtain ⟨number, hnumber⟩ := List.mem_iff_getElem?.1 hway
  have hmem : Attempt.mk number way place ∈ pattern.open place attempts := by
    refine List.mem_append_right _ (List.mem_map.2 ⟨(way, number), ?_, rfl⟩)
    exact List.mem_zipIdx_iff_getElem?.2 hnumber
  exact h _ hmem ⟨after, hmatches⟩

/-- The attempts that are kept before a character have a match if one of the open attempts has. -/
theorem exists_kept {before : Option Char} {c : Char} {rest : List Char} {attempts : List Attempt}
    (follows : ∀ attempt ∈ attempts, attempt.Follows pattern)
    (pending : ∀ kept ∈ Attempt.distinct [] (attempts.flatMap (Attempt.reached before (some c))),
      kept.isDone = false)
    {attempt : Attempt} (hmem : attempt ∈ attempts) (h : attempt.CanMatch before (c :: rest)) :
    ∃ kept ∈ Attempt.distinct [] (attempts.flatMap (Attempt.reached before (some c))),
      kept.advance.CanMatch (some c) rest := by
  have hfollows := Attempt.follows_reached follows before (some c)
  have hleft : ∀ other ∈ attempts.flatMap (Attempt.reached before (some c)),
      ∃ kept ∈ Attempt.distinct [] (attempts.flatMap (Attempt.reached before (some c))),
        other.left = kept.left := by
    intro other hother
    obtain ⟨kept, hkept, same⟩ := Attempt.exists_mem_distinct [] hother
    exact ⟨kept, hkept, (hfollows other hother).left_eq
      (hfollows kept (Attempt.distinct_subset [] _ hkept)) same⟩
  obtain ⟨c', rest', hs, other, hother, hbehind⟩ := exists_reached hmem h fun other hother => by
    obtain ⟨kept, hkept, heq⟩ := hleft other hother
    rw [Attempt.isDone, heq]
    exact pending kept hkept
  cases hs
  obtain ⟨kept, hkept, heq⟩ := hleft other hother
  refine ⟨kept, hkept, ?_⟩
  rwa [Attempt.CanMatch, Attempt.advance, ← heq]

/-- A search that finds nothing has no attempt with a match, and no way with a match further on. -/
theorem Pattern.search_complete {place : Nat} {before : Option Char} {attempts : List Attempt}
    (follows : ∀ attempt ∈ attempts, attempt.Follows pattern) {s : List Char}
    (h : pattern.search place before attempts none s = none) :
    (∀ attempt ∈ pattern.open place attempts, ¬ attempt.CanMatch before s) ∧
      ∀ front behind, s = front ++ behind → ∀ way ∈ pattern, ∀ after,
        ¬ Way.Matches (front.getLast?.or before) way behind after := by
  have hfollows : ∀ attempt ∈ pattern.open place attempts, attempt.Follows pattern :=
    Pattern.follows_open follows
  induction s generalizing place before attempts with
  | nil =>
      have hdone : ((pattern.open place attempts).flatMap (Attempt.reached before none)).find?
          Attempt.isDone = none := by
        rw [Pattern.search] at h
        rw [Pattern.reached_open]
        rwa [Option.or_none, Option.map_eq_none_iff] at h
      have hopen : ∀ attempt ∈ pattern.open place attempts, ¬ attempt.CanMatch before [] := by
        intro attempt hmem hmatches
        obtain ⟨c, rest, hs, -⟩ := exists_reached hmem hmatches fun other hother =>
          Bool.eq_false_iff.2 (List.find?_eq_none.1 hdone other hother)
        cases hs
      refine ⟨hopen, fun front behind hs way hway after => ?_⟩
      obtain ⟨rfl, rfl⟩ := List.nil_eq_append_iff.1 hs
      exact Pattern.not_matches_of_open hopen hway after
  | cons c rest ih =>
      rw [Pattern.search] at h
      simp only [Option.isSome_none, Bool.false_eq_true, if_false, ← Pattern.reached_open,
        Option.or_none] at h
      -- the attempts that the search keeps before `c`: none of them is done, or it would find them
      generalize hreached : Attempt.distinct []
        ((pattern.open place attempts).flatMap (Attempt.reached before (some c))) = reached at h
      have hdone : reached.find? Attempt.isDone = none := by
        cases hfind : reached.find? Attempt.isDone with
        | none => rfl
        | some found =>
            rw [hfind] at h
            split at h
            · cases h
            · have hsome := congrArg Option.isSome h
              rw [Option.map_some, Pattern.search_isSome rfl rest] at hsome
              cases hsome
      have hpending : ∀ kept ∈ reached, kept.isDone = false := fun kept hkept =>
        Bool.eq_false_iff.2 (List.find?_eq_none.1 hdone kept hkept)
      have hwhole : reached.takeWhile (!·.isDone) = reached := by
        refine List.takeWhile_eq_self_iff.2 fun kept hkept => ?_
        rw [hpending kept hkept]
        rfl
      rw [hdone, hwhole] at h
      simp only [Option.map_none, Option.isSome_none, Bool.and_false, Bool.false_eq_true,
        if_false] at h
      have hnext : ∀ attempt ∈ reached.map Attempt.advance, attempt.Follows pattern := by
        intro attempt hmem
        obtain ⟨kept, hkept, rfl⟩ := List.mem_map.1 hmem
        rw [← hreached] at hkept
        have hreach := Attempt.distinct_subset [] _ hkept
        exact (Attempt.follows_reached hfollows before (some c) kept hreach).advance
      obtain ⟨hlater, hfurther⟩ := ih hnext h (Pattern.follows_open hnext)
      have hopen : ∀ attempt ∈ pattern.open place attempts, ¬ attempt.CanMatch before (c :: rest) := by
        intro attempt hmem hmatches
        subst hreached
        obtain ⟨kept, hkept, hbehind⟩ := exists_kept hfollows hpending hmem hmatches
        exact hlater _ (List.mem_append_left _ (List.mem_map_of_mem hkept)) hbehind
      refine ⟨hopen, fun front behind hs way hway after => ?_⟩
      cases front with
      | nil =>
          obtain rfl : behind = c :: rest := hs.symm
          exact Pattern.not_matches_of_open hopen hway after
      | cons first more =>
          cases hs
          rw [getLast?_cons_or]
          exact hfurther more behind rfl way hway after

/-- Where a search finds nothing no way has a match. -/
theorem Pattern.find?_complete {s : List Char} (h : pattern.find? s = none) {front behind : List Char}
    (hs : s = front ++ behind) {way : Way} (hway : way ∈ pattern) (after : List Char) :
    ¬ Way.Matches front.getLast? way behind after := by
  rw [Pattern.find?, Option.map_eq_none_iff] at h
  have hall := Pattern.search_complete (fun attempt hmem => absurd hmem List.not_mem_nil) h
  have hnone := hall.2 front behind hs way hway after
  rwa [Option.or_none] at hnone

/-! What a search finds is a match. -/

theorem matches_of_reach {before : Option Char} {c : Char} {rest after : List Char} {way left : Way}
    (hleft : left ∈ reach before (some c) way) (hpending : left ≠ [])
    (h : Way.Matches (some c) (afterNext left) rest after) : Way.Matches before way (c :: rest) after := by
  induction way with
  | nil => exact absurd (List.mem_singleton.1 hleft) hpending
  | cons atom way ih =>
      cases atom with
      | one cls =>
          rw [reach] at hleft
          split at hleft
          next hc =>
            rw [List.mem_singleton.1 hleft] at h
            exact .one hc h
          next => exact absurd hleft List.not_mem_nil
      | run cls =>
          rw [reach] at hleft
          split at hleft
          next hc =>
            rcases List.mem_cons.1 hleft with rfl | hlater
            · exact .more hc h
            · exact .stop (ih hlater)
          next => exact .stop (ih hleft)
      | bound =>
          obtain ⟨hlater, here⟩ := List.mem_filter.1 hleft
          exact .bound here (ih hlater)

theorem matches_of_done {before : Option Char} {s : List Char} {way : Way}
    (h : [] ∈ reach before s.head? way) : Way.Matches before way s s := by
  induction way with
  | nil => exact .done before s
  | cons atom way ih =>
      cases atom with
      | one cls =>
          rw [reach] at h
          split at h
          · cases List.mem_singleton.1 h
          · exact absurd h List.not_mem_nil
      | run cls =>
          rw [reach] at h
          split at h
          · rcases List.mem_cons.1 h with hnil | hlater
            · cases hnil
            · exact .stop (ih hlater)
          · exact .stop (ih h)
      | bound =>
          obtain ⟨hlater, here⟩ := List.mem_filter.1 h
          exact .bound here (ih hlater)

/-- Whether some way matches somewhere in a text. -/
def Pattern.Occurs (pattern : Pattern) (text : List Char) : Prop :=
  ∃ front behind way after, text = front ++ behind ∧ way ∈ pattern ∧
    Way.Matches front.getLast? way behind after

/-- An attempt that makes a match of the pattern in a text out of any match of what it leaves. -/
def Attempt.Proves (pattern : Pattern) (text : List Char) (before : Option Char) (s : List Char)
    (attempt : Attempt) : Prop :=
  ∀ after, Way.Matches before attempt.left s after → pattern.Occurs text

section Sound

variable {text passed s : List Char} {place : Nat} {attempts : List Attempt}

theorem Pattern.proves_open (place : Nat) (htext : text = passed ++ s)
    (h : ∀ attempt ∈ attempts, attempt.Proves pattern text passed.getLast? s) :
    ∀ attempt ∈ pattern.open place attempts, attempt.Proves pattern text passed.getLast? s := by
  intro attempt hmem
  rcases List.mem_append.1 hmem with hmem | hmem
  · exact h attempt hmem
  · obtain ⟨⟨atoms, way⟩, hway, rfl⟩ := List.mem_map.1 hmem
    intro after hmatches
    have hatoms : atoms ∈ pattern := List.mem_of_getElem? (List.mem_zipIdx_iff_getElem?.1 hway)
    exact ⟨passed, s, atoms, after, htext, hatoms, hmatches⟩

/-- What is reached at a place comes from attempts that are open there. -/
theorem Pattern.exists_open_of_reached {before next : Option Char} {found : Option (Nat × Nat)}
    {reached : Attempt}
    (h : reached ∈ attempts.flatMap (Attempt.reached before next) ++
      (if found.isSome then [] else pattern.begin place before next)) :
    ∃ attempt ∈ pattern.open place attempts, reached.left ∈ reach before next attempt.left := by
  have hmem : reached ∈ (pattern.open place attempts).flatMap (Attempt.reached before next) := by
    rw [Pattern.reached_open]
    rcases List.mem_append.1 h with hold | hfresh
    · exact List.mem_append_left _ hold
    · split at hfresh
      · exact absurd hfresh List.not_mem_nil
      · exact List.mem_append_right _ hfresh
  obtain ⟨attempt, hattempt, hreached⟩ := List.mem_flatMap.1 hmem
  obtain ⟨left, hleft, rfl⟩ := List.mem_map.1 hreached
  exact ⟨attempt, hattempt, hleft⟩

/-- An attempt that is done here has come from one with a match that ends here. -/
theorem Pattern.occurs_of_done {before : Option Char} {opened reached : List Attempt}
    (hopen : ∀ attempt ∈ opened, attempt.Proves pattern text before s)
    (horigin : ∀ other ∈ reached, ∃ attempt ∈ opened, other.left ∈ reach before s.head? attempt.left)
    (h : (reached.find? Attempt.isDone).isSome = true) : pattern.Occurs text := by
  obtain ⟨done, hdone⟩ := Option.isSome_iff_exists.1 h
  obtain ⟨attempt, hattempt, hleft⟩ := horigin done (List.mem_of_find?_eq_some hdone)
  have hempty : done.left = [] := List.isEmpty_iff.1 (List.find?_some (p := Attempt.isDone) hdone)
  rw [hempty] at hleft
  exact hopen attempt hattempt s (matches_of_done hleft)

/-- A search whose attempts all stand for matches finds nothing else. -/
theorem Pattern.search_sound (passed : List Char) {found : Option (Nat × Nat)} (htext : text = passed ++ s)
    (hfound : found.isSome = true → pattern.Occurs text)
    (hattempts : ∀ attempt ∈ attempts, attempt.Proves pattern text passed.getLast? s)
    (h : (pattern.search place passed.getLast? attempts found s).isSome = true) :
    pattern.Occurs text := by
  have hopen := Pattern.proves_open place htext hattempts
  induction s generalizing passed place attempts found with
  | nil =>
      rw [Pattern.search, Option.isSome_or, Bool.or_eq_true, Option.isSome_map] at h
      rcases h with hdone | hsome
      · exact Pattern.occurs_of_done hopen (fun other hother => Pattern.exists_open_of_reached hother) hdone
      · exact hfound hsome
  | cons c rest ih =>
      rw [Pattern.search] at h
      generalize hreached : Attempt.distinct [] _ = reached at h
      have horigin : ∀ other ∈ reached, ∃ attempt ∈ pattern.open place attempts,
          other.left ∈ reach passed.getLast? (some c) attempt.left := by
        intro other hother
        rw [← hreached] at hother
        exact Pattern.exists_open_of_reached (Attempt.distinct_subset [] _ hother)
      have hfound' : (((reached.find? Attempt.isDone).map fun attempt => (attempt.start, place)).or
          found).isSome = true → pattern.Occurs text := by
        intro hsome
        rw [Option.isSome_or, Bool.or_eq_true, Option.isSome_map] at hsome
        rcases hsome with hdone | hsome
        · exact Pattern.occurs_of_done hopen horigin hdone
        · exact hfound hsome
      split at h
      · exact hfound' h
      · have hlast : (passed ++ [c]).getLast? = some c := List.getLast?_concat
        have htext' : text = passed ++ [c] ++ rest := by simp [htext]
        have hnext : ∀ attempt ∈ (reached.takeWhile (!·.isDone)).map Attempt.advance,
            attempt.Proves pattern text (passed ++ [c]).getLast? rest := by
          intro advanced hmem after hmatches
          obtain ⟨other, hother, rfl⟩ := List.mem_map.1 hmem
          have hpending : other.left ≠ [] := by
            intro hnil
            have hnotDone := List.mem_takeWhile_imp hother
            simp [Attempt.isDone, hnil] at hnotDone
          obtain ⟨attempt, hattempt, hleft⟩ := horigin other (List.takeWhile_subset _ hother)
          rw [hlast] at hmatches
          exact hopen attempt hattempt after (matches_of_reach hleft hpending hmatches)
        rw [← hlast] at h
        exact ih _ htext' hfound' hnext h (Pattern.proves_open _ htext' hnext)

end Sound

theorem Pattern.find?_sound {s : List Char} (h : (pattern.find? s).isSome = true) : pattern.Occurs s := by
  rw [Pattern.find?, Option.isSome_map] at h
  have hnone : ∀ attempt ∈ ([] : List Attempt), attempt.Proves pattern s none s :=
    fun attempt hmem => absurd hmem List.not_mem_nil
  have hfound : (none : Option (Nat × Nat)).isSome = true → pattern.Occurs s := fun hsome => by cases hsome
  exact Pattern.search_sound [] rfl hfound hnone h

end Stencil.Text
