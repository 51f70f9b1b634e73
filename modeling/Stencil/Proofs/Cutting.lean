import Mathlib.Data.List.Infix
import Stencil.Text.Basic
import Stencil.Text.Quoted

/-!
Where a text is cut: at a mark, which is the first place from which the text goes on with it; behind a run
of characters of one class; and at the closing mark of a quote.
-/

namespace Stencil.Text

/-- A run of one class ends where a character of another class follows. -/
theorem span_append {p : Char → Bool} {run rest : List Char} (hrun : ∀ c ∈ run, p c = true)
    (hrest : ∀ c ∈ rest.head?, p c = false) :
    (run ++ rest).takeWhile p = run ∧ (run ++ rest).dropWhile p = rest := by
  have hstop : rest.takeWhile p = [] ∧ rest.dropWhile p = rest := by
    cases rest with
    | nil => exact ⟨rfl, rfl⟩
    | cons c more =>
        have hc : ¬ p c = true := Bool.not_eq_true _ ▸ hrest c rfl
        exact ⟨List.takeWhile_cons_of_neg hc, List.dropWhile_cons_of_neg hc⟩
  rw [List.takeWhile_append_of_pos hrun, List.dropWhile_append_of_pos hrun, hstop.1, hstop.2,
    List.append_nil]
  exact ⟨rfl, rfl⟩

/-- A quote without backslashes ends at its first mark. -/
theorem quotedText_plain {mark : Char} {inner : List Char} (h : ∀ c ∈ inner, c ≠ '\\' ∧ c ≠ mark)
    (hmark : mark ≠ '\\') (passed rest : List Char) :
    quotedText mark passed (inner ++ mark :: rest) = .ok (passed.reverse ++ inner, rest) := by
  induction inner generalizing passed with
  | nil => simp [quotedText]
  | cons c others ih =>
      obtain ⟨⟨hbackslash, hother⟩, hothers⟩ := List.forall_mem_cons.1 h
      have hnext := ih hothers (c :: passed)
      simp [quotedText, hother, hnext]

/-- A text that goes on with a mark after it shows the mark at no earlier place. -/
def IsFirst (mark before after : List Char) : Prop :=
  ∀ front back, before = front ++ back → back ≠ [] → ¬ mark <+: back ++ (mark ++ after)

theorem isFirst_nil (mark after : List Char) : IsFirst mark [] after := by
  intro front back heq hback
  exact absurd (List.append_eq_nil_iff.1 heq.symm).2 hback

theorem isFirst_cons {mark before after : List Char} {c : Char} :
    IsFirst mark (c :: before) after ↔
      ¬ mark <+: c :: (before ++ (mark ++ after)) ∧ IsFirst mark before after := by
  constructor
  · intro h
    refine ⟨h [] (c :: before) rfl (List.cons_ne_nil _ _), fun front back heq hback => ?_⟩
    exact h (c :: front) back (congrArg (c :: ·) heq) hback
  · rintro ⟨hfirst, hrest⟩ front back heq hback
    cases front with
    | nil =>
        obtain rfl : c :: before = back := heq
        exact hfirst
    | cons d front =>
        obtain ⟨rfl, hbefore⟩ := List.cons.inj heq
        exact hrest front back hbefore hback

theorem isFirst_of_notMem {mark : Char} {before : List Char} (h : mark ∉ before) (after : List Char) :
    IsFirst [mark] before after := by
  rintro front (_ | ⟨c, back⟩) rfl hback hprefix
  · exact hback rfl
  · obtain ⟨rfl, -⟩ := List.cons_prefix_cons.1 hprefix
    exact h (List.mem_append_right _ (List.mem_cons_self ..))

theorem cutFrom?_eq_some_iff {mark : List Char} (hmark : mark ≠ []) {passed s before after : List Char} :
    cutFrom? mark passed s = some (before, after) ↔
      ∃ middle, before = passed.reverse ++ middle ∧ s = middle ++ (mark ++ after) ∧
        IsFirst mark middle after := by
  induction s generalizing passed with
  | nil =>
      have hempty : mark.isEmpty = false := Bool.eq_false_iff.2 fun h => hmark (List.isEmpty_iff.1 h)
      rw [cutFrom?, hempty, if_neg Bool.false_ne_true]
      constructor
      · rintro ⟨⟩
      · rintro ⟨middle, -, hs, -⟩
        have hnil := (List.append_eq_nil_iff.1 (List.append_eq_nil_iff.1 hs.symm).2).1
        exact absurd hnil hmark
  | cons c rest ih =>
      rw [cutFrom?]
      split
      next found hfound =>
        have hs : mark ++ found = c :: rest := List.isPrefixOf?_eq_some_iff_append_eq.1 hfound
        constructor
        · intro h
          cases h
          exact ⟨[], (List.append_nil _).symm, hs.symm, isFirst_nil mark _⟩
        · rintro ⟨middle, rfl, hmiddle, hfirst⟩
          cases middle with
          | nil =>
              obtain rfl : found = after := List.append_cancel_left (hs.trans hmiddle)
              rw [List.append_nil]
          | cons d middle =>
              -- the mark stands at the very front already
              refine absurd ?_ (hfirst [] (d :: middle) rfl (List.cons_ne_nil _ _))
              rw [← hmiddle, ← hs]
              exact List.prefix_append ..
      next hnone =>
        have hno : ¬ mark <+: c :: rest := by
          rintro ⟨found, hfound⟩
          rw [List.isPrefixOf?_eq_some_iff_append_eq.2 hfound] at hnone
          cases hnone
        rw [ih]
        constructor
        · rintro ⟨middle, rfl, hrest, hfirst⟩
          refine ⟨c :: middle, by simp, congrArg (c :: ·) hrest, isFirst_cons.2 ⟨?_, hfirst⟩⟩
          rwa [← hrest]
        · rintro ⟨middle, rfl, hmiddle, hfirst⟩
          cases middle with
          | nil => exact absurd ⟨after, hmiddle.symm⟩ hno
          | cons d middle =>
              obtain ⟨rfl, hrest⟩ := List.cons.inj hmiddle
              exact ⟨middle, by simp, hrest, (isFirst_cons.1 hfirst).2⟩

/-- A text is cut at the first place of a mark. -/
theorem cut?_eq_some_iff {mark : List Char} (hmark : mark ≠ []) {s before after : List Char} :
    cut? mark s = some (before, after) ↔ s = before ++ (mark ++ after) ∧ IsFirst mark before after := by
  unfold cut?
  rw [cutFrom?_eq_some_iff hmark]
  simp

/-- No mark stands in the text before the first one. -/
theorem IsFirst.absent {mark before after : List Char} (hmark : mark ≠ [])
    (h : IsFirst mark before after) : ¬ mark <:+: before := by
  rintro ⟨front, back, rfl⟩
  refine h front (mark ++ back) (List.append_assoc ..) ?_ ?_
  · exact fun hnil => hmark (List.append_eq_nil_iff.1 hnil).1
  · rw [List.append_assoc]
    exact List.prefix_append ..

/-- A text that holds a mark can be cut at it. -/
theorem occurs_iff {mark : List Char} (hmark : mark ≠ []) {s : List Char} :
    occurs mark s = true ↔ mark <:+: s := by
  constructor
  · intro h
    obtain ⟨⟨before, after⟩, hcut⟩ := Option.isSome_iff_exists.1 h
    exact ⟨before, after, (cut?_append hcut).symm⟩
  · have hfrom (passed : List Char) : mark <:+: s → (cutFrom? mark passed s).isSome = true := by
      induction s generalizing passed with
      | nil => exact fun hinfix => absurd (List.infix_nil.1 hinfix) hmark
      | cons c rest ih =>
          intro hinfix
          rw [cutFrom?]
          split
          next => rfl
          next hnone =>
            rcases List.infix_cons_iff.1 hinfix with ⟨found, hfound⟩ | hlater
            · rw [List.isPrefixOf?_eq_some_iff_append_eq.2 hfound] at hnone
              cases hnone
            · exact ih _ hlater
    exact hfrom []

/-- A text that does not begin with a mark is cut as the rest is. -/
theorem cut?_cons {mark : List Char} (hmark : mark ≠ []) {c : Char} {rest : List Char}
    (h : ¬ mark <+: c :: rest) :
    cut? mark (c :: rest) = (cut? mark rest).map fun parts => (c :: parts.1, parts.2) := by
  apply Option.ext
  rintro ⟨before, after⟩
  simp only [Option.map_eq_some_iff, Prod.exists, Prod.mk.injEq, cut?_eq_some_iff hmark]
  constructor
  · rintro ⟨heq, hfirst⟩
    cases before with
    | nil => exact absurd ⟨after, heq.symm⟩ h
    | cons first before =>
        obtain ⟨rfl, hrest⟩ := List.cons.inj heq
        exact ⟨before, after, ⟨hrest, (isFirst_cons.1 hfirst).2⟩, rfl, rfl⟩
  · rintro ⟨front, back, ⟨rfl, hfirst⟩, rfl, rfl⟩
    exact ⟨rfl, isFirst_cons.2 ⟨h, hfirst⟩⟩

/-- What cannot be cut has no part that can be cut. -/
theorem cut?_eq_none_of_suffix {mark : List Char} (hmark : mark ≠ []) {s t : List Char}
    (h : cut? mark s = none) (hsuffix : t <:+ s) : cut? mark t = none := by
  have hoccurs (s : List Char) : cut? mark s = none ↔ ¬ mark <:+: s := by
    rw [← occurs_iff hmark]
    unfold occurs
    rw [Option.not_isSome_iff_eq_none]
  rw [hoccurs] at h ⊢
  exact fun hwithin => h (hwithin.trans hsuffix.isInfix)

end Stencil.Text
