import Mathlib.Data.List.TakeWhile
import Stencil.Gate.Escape

/-!
Removal of tags. From left to right, everything from a `<` to the next `>` goes, and what stands between two
tags stays. No tag comes about where the pieces meet, so nothing is left to remove.
-/

namespace Stencil.Gate

/-- A text in which no `<` has a `>` behind it. -/
def TagFree (s : List Char) : Prop := ∀ before after, s = before ++ '<' :: after → '>' ∉ after

/-- What is left of a text without its tags. A tag goes from the first `<` to the next `>`, and the tags behind
it are those of the text behind it. -/
inductive Stripped : List Char → List Char → Prop where
  | free {s : List Char} (free : TagFree s) : Stripped s s
  | tag {before inside after left : List Char} (first : '<' ∉ before) (next : '>' ∉ inside)
      (rest : Stripped after left) : Stripped (before ++ '<' :: (inside ++ '>' :: after)) (before ++ left)

theorem TagFree.of_not_mem {s : List Char} (h : '>' ∉ s) : TagFree s := by
  rintro before after rfl hmem
  exact h (List.mem_append_right _ (List.mem_cons_of_mem _ hmem))

theorem TagFree.tail {c : Char} {s : List Char} (h : TagFree (c :: s)) : TagFree s := by
  rintro before after rfl
  exact h (c :: before) after rfl

/-- Text without a `<` adds no tag to the text behind it. -/
theorem TagFree.append {before s : List Char} (hbefore : '<' ∉ before) (h : TagFree s) :
    TagFree (before ++ s) := by
  induction before with
  | nil => exact h
  | cons c rest ih =>
      rw [List.mem_cons, not_or] at hbefore
      intro front after heq
      rcases List.cons_eq_append_iff.1 heq with ⟨rfl, hhead⟩ | ⟨behind, rfl, hbehind⟩
      · exact absurd (List.cons.inj hhead).1 hbefore.1
      · exact ih hbefore.2 behind after hbehind

namespace Stripped

variable {s left : List Char}

theorem cons {c : Char} (hc : c ≠ '<') (h : Stripped s left) : Stripped (c :: s) (c :: left) := by
  cases h with
  | free h =>
      have hfront : '<' ∉ [c] := by simpa using hc.symm
      exact .free (h.append hfront)
  | @tag before inside after left first next rest =>
      have hbefore : '<' ∉ c :: before := by
        rw [List.mem_cons, not_or]
        exact ⟨hc.symm, first⟩
      exact .tag hbefore next rest

/-- Where the pieces meet, no tag comes about: what stands before a tag has no `<`. -/
theorem tagFree (h : Stripped s left) : TagFree left := by
  induction h with
  | free h => exact h
  | tag first next rest ih => exact ih.append first

theorem sublist (h : Stripped s left) : left.Sublist s := by
  induction h with
  | free h => exact List.Sublist.refl _
  | @tag before inside after left first next rest ih =>
      have hbehind : after.Sublist ('<' :: (inside ++ '>' :: after)) :=
        ((List.sublist_cons_self '>' after).trans (List.sublist_append_right inside _)).cons '<'
      exact (ih.trans hbehind).append_left before

end Stripped

/-- What begins at the first `>` of a text stands behind text without one. -/
theorem eq_append_of_dropWhile {s after : List Char} {mark : Char}
    (h : s.dropWhile (· != '>') = mark :: after) : ∃ inside, '>' ∉ inside ∧ s = inside ++ '>' :: after := by
  have hmark : mark = '>' := by
    have hstops := List.head?_dropWhile_not (· != '>') s
    rw [h] at hstops
    simpa using hstops
  have hinside : '>' ∉ s.takeWhile (· != '>') := fun hmem => by
    simpa using List.mem_takeWhile_imp hmem
  subst hmark
  refine ⟨s.takeWhile (· != '>'), hinside, ?_⟩
  rw [← h, List.takeWhile_append_dropWhile]

theorem not_mem_of_dropWhile {s : List Char} (h : s.dropWhile (· != '>') = []) : '>' ∉ s :=
  fun hmem => by simpa using List.dropWhile_eq_nil_iff.1 h '>' hmem

theorem stripped_stripTags (s : List Char) : Stripped s (stripTags s) := by
  fun_induction stripTags s with
  | case1 => exact .free (TagFree.of_not_mem List.not_mem_nil)
  | case2 rest mark after hafter ih =>
      obtain ⟨inside, next, rfl⟩ := eq_append_of_dropWhile hafter
      have hfront : '<' ∉ ([] : List Char) := List.not_mem_nil
      exact .tag hfront next ih
  | case3 rest hnone =>
      have hmem : '>' ∉ '<' :: rest := by simpa using not_mem_of_dropWhile hnone
      exact .free (TagFree.of_not_mem hmem)
  | case4 c rest hc ih => exact ih.cons hc

theorem stripTags_eq_self {s : List Char} (h : TagFree s) : stripTags s = s := by
  fun_induction stripTags s with
  | case1 => rfl
  | case2 rest mark after hafter ih =>
      obtain ⟨inside, -, rfl⟩ := eq_append_of_dropWhile hafter
      exact absurd (List.mem_append_right _ (List.mem_cons_self ..)) (h [] _ rfl)
  | case3 rest hnone => rfl
  | case4 c rest hc ih => rw [ih h.tail]

/-- Values from which tags are removed, and which are written as they are otherwise. -/
def tagsRemoved : Encoding := { htmlEncode := false, stripTags := true, scriptEncode := false }

theorem toList_encodeOutput_tagsRemoved (text : String) :
    (encodeOutput tagsRemoved text).toList = stripTags text.toList := by
  rw [encodeOutput, String.toList_ofList]
  rfl

/-- Removal of tags leaves no tag, whatever the text is: no `<` of what is left has a `>` behind it. What is left
are characters of the text in their order, all but those of the tags from left to right, and nothing more is
removed from it. -/
theorem tags_removed (text : String) :
    TagFree (encodeOutput tagsRemoved text).toList ∧
    (encodeOutput tagsRemoved text).toList.Sublist text.toList ∧
    Stripped text.toList (encodeOutput tagsRemoved text).toList ∧
    encodeOutput tagsRemoved (encodeOutput tagsRemoved text) = encodeOutput tagsRemoved text := by
  have hleft : Stripped text.toList (encodeOutput tagsRemoved text).toList := by
    rw [toList_encodeOutput_tagsRemoved]
    exact stripped_stripTags _
  refine ⟨hleft.tagFree, hleft.sublist, hleft, String.toList_inj.1 ?_⟩
  rw [toList_encodeOutput_tagsRemoved, stripTags_eq_self hleft.tagFree]

/-- A tag inside a tag ends both, and the rest of the outer one is no tag. -/
example : encodeOutput tagsRemoved "a<scr<script>ipt>b<" = "aipt>b<" := by cbv

end Stencil.Gate
