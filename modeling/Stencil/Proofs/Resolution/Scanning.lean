import Mathlib.Data.List.TakeWhile
import Stencil.Reference.Bracket
import Stencil.Reference.Split

/-!
How the scanners of expressions get through texts of known shape: where the first indexer opens and
closes, what trimming leaves, and which pieces bars, colons and commas cut.
-/

namespace Stencil

namespace Text

/-- The characters of identifiers lie between the zero and the small z. -/
theorem toNat_of_isIdentifierPart {c : Char} (h : isIdentifierPart c = true) :
    0x30 ≤ c.toNat ∧ c.toNat < 0x7B := by
  simp only [isIdentifierPart, isAsciiAlphanumeric, isAsciiLetter, isAsciiDigit, Bool.or_eq_true,
    Bool.and_eq_true, decide_eq_true_eq, beq_iff_eq, Char.le_def, UInt32.le_iff_toNat_le] at h
  change 0x30 ≤ c.val.toNat ∧ c.val.toNat < 0x7B
  rcases h with ((h | h) | h) | rfl
  · exact ⟨Nat.le_trans (by decide) h.1, Nat.lt_of_le_of_lt h.2 (by decide)⟩
  · exact ⟨Nat.le_trans (by decide) h.1, Nat.lt_of_le_of_lt h.2 (by decide)⟩
  · exact ⟨Nat.le_trans (by decide) h.1, Nat.lt_of_le_of_lt h.2 (by decide)⟩
  · decide

theorem isBlank_of_isIdentifierPart {c : Char} (h : isIdentifierPart c = true) :
    isBlank c = false := by
  obtain ⟨hlow, hhigh⟩ := toNat_of_isIdentifierPart h
  unfold isBlank blankRanges
  generalize c.toNat = code at hlow hhigh
  have h1 : ¬ code < 0x9 := by omega
  have h2 : ¬ code < 0xE := by omega
  have h3 : ¬ code < 0x20 := by omega
  have h4 : ¬ code < 0x21 := by omega
  have h5 : code < 0x85 := by omega
  simp only [inRanges, h1, h2, h3, h4, h5, if_true, if_false]

theorem isIdentifierPart_of_isIdentifierStart {c : Char} (h : isIdentifierStart c = true) :
    isIdentifierPart c = true := by
  simp only [isIdentifierStart, isIdentifierPart, isAsciiAlphanumeric, Bool.or_eq_true] at h ⊢
  rcases h with h | h
  · exact Or.inl (Or.inl h)
  · exact Or.inr h

theorem isIdentifierPart_of_isIdentifier {s : List Char} (h : isIdentifier s = true) :
    ∀ c ∈ s, isIdentifierPart c = true := by
  cases s with
  | nil => exact absurd h (by decide)
  | cons first rest =>
      obtain ⟨hfirst, hrest⟩ : isIdentifierStart first = true ∧ rest.all isIdentifierPart = true :=
        Bool.and_eq_true_iff.1 h
      intro c hc
      rcases List.mem_cons.1 hc with rfl | hmem
      · exact isIdentifierPart_of_isIdentifierStart hfirst
      · exact List.all_eq_true.1 hrest c hmem

theorem trimStart_cons {c : Char} (h : isBlank c = false) (rest : List Char) :
    trimStart (c :: rest) = c :: rest := by
  simp [trimStart, h]

theorem trimStart_append {gap : List Char} (h : ∀ c ∈ gap, isBlank c = true) (rest : List Char) :
    trimStart (gap ++ rest) = trimStart rest :=
  List.dropWhile_append_of_pos h

theorem trimEnd_append {gap : List Char} (h : ∀ c ∈ gap, isBlank c = true) (front : List Char) :
    trimEnd (front ++ gap) = trimEnd front := by
  have hreverse : ∀ c ∈ gap.reverse, isBlank c = true := fun c hc => h c (List.mem_reverse.1 hc)
  have hdrop := trimStart_append hreverse front.reverse
  unfold trimStart at hdrop
  simp [trimEnd, hdrop]

theorem not_mem_identifier {s : List Char} (h : isIdentifier s = true) : '.' ∉ s := fun hmem =>
  absurd (isIdentifierPart_of_isIdentifier h '.' hmem) (by decide)

/-- Blanks before a text do not survive trimming. -/
theorem trim_blanks_append {gap : List Char} (h : ∀ c ∈ gap, isBlank c = true) (s : List Char) :
    trim (gap ++ s) = trim s := by
  rw [trim, trim, trimStart_append h]

/-- Blanks behind a text do not survive trimming. -/
theorem trim_append {gap : List Char} (h : ∀ c ∈ gap, isBlank c = true) (s : List Char) :
    trim (s ++ gap) = trim s := by
  have hgap : trimStart gap = [] := List.dropWhile_eq_nil_iff.2 h
  have hstart : trimStart (s ++ gap) =
      if (trimStart s).isEmpty then trimStart gap else trimStart s ++ gap := List.dropWhile_append
  rw [trim, trim, hstart]
  split
  next hs => rw [hgap, List.isEmpty_iff.1 hs]
  next => exact trimEnd_append h _

theorem trimEnd_concat {c : Char} (h : isBlank c = false) (front : List Char) :
    trimEnd (front ++ [c]) = front ++ [c] := by
  simp [trimEnd, h]

/-- Trimming leaves a text alone that starts and ends without a blank. -/
theorem trim_eq_self {s : List Char} (hhead : ∀ c ∈ s.head?, isBlank c = false)
    (hlast : ∀ c ∈ s.getLast?, isBlank c = false) : trim s = s := by
  cases s with
  | nil => rfl
  | cons c rest =>
      have hc : isBlank c = false := hhead c rfl
      obtain ⟨front, last, hs⟩ : ∃ front last, c :: rest = front ++ [last] :=
        ⟨_, _, (List.dropLast_concat_getLast (List.cons_ne_nil c rest)).symm⟩
      have hl : isBlank last = false := hlast last (by simp [hs])
      rw [trim, trimStart_cons hc, hs, trimEnd_concat hl]

/-- What is trimmed once is trimmed. -/
theorem trim_trim (s : List Char) : trim (trim s) = trim s := by
  have hdropped (s : List Char) : ∀ c ∈ (s.dropWhile isBlank).head?, isBlank c = false := by
    intro c hc
    have hnot := List.head?_dropWhile_not isBlank s
    rw [hc] at hnot
    exact hnot
  obtain ⟨more, hmore⟩ : trim s <+: trimStart s := by
    rw [← List.reverse_suffix]
    unfold trim trimEnd
    rw [List.reverse_reverse]
    exact List.dropWhile_suffix isBlank
  refine trim_eq_self (fun c hc => hdropped s c ?_) fun c hc => ?_
  · obtain ⟨rest, hrest⟩ := List.head?_eq_some_iff.1 hc
    unfold trimStart at hmore
    rw [← hmore, hrest]
    rfl
  · unfold trim trimEnd at hc
    rw [List.getLast?_reverse] at hc
    exact hdropped _ c hc

/-- A text that starts and ends without a blank. -/
structure IsSolid (s : List Char) : Prop where
  nonempty : s ≠ []
  head : ∀ c ∈ s.head?, isBlank c = false
  last : ∀ c ∈ s.getLast?, isBlank c = false

theorem IsSolid.trim_eq {s : List Char} (h : IsSolid s) : trim s = s := trim_eq_self h.head h.last

theorem IsSolid.of_all {s : List Char} (nonempty : s ≠ []) (h : ∀ c ∈ s, isBlank c = false) :
    IsSolid s where
  nonempty := nonempty
  head c hc := h c (List.mem_of_mem_head? hc)
  last c hc := h c (List.mem_of_mem_getLast? hc)

/-- Whatever stands between two solid texts. -/
theorem IsSolid.append {s t : List Char} (hs : IsSolid s) (ht : IsSolid t) (middle : List Char) :
    IsSolid (s ++ (middle ++ t)) where
  nonempty h := hs.nonempty (List.append_eq_nil_iff.1 h).1
  head c hc := by
    obtain ⟨first, rest, rfl⟩ := List.exists_cons_of_ne_nil hs.nonempty
    exact hs.head c hc
  last c hc := by
    have hlast := List.getLast?_eq_some_getLast ht.nonempty
    rw [← List.append_assoc, List.getLast?_append, hlast, Option.some_or] at hc
    exact ht.last c (hlast ▸ hc)

theorem IsSolid.of_identifier {s : List Char} (h : isIdentifier s = true) : IsSolid s := by
  refine IsSolid.of_all ?_ fun c hc =>
    isBlank_of_isIdentifierPart (isIdentifierPart_of_isIdentifier h c hc)
  rintro rfl
  exact absurd h (by decide)

theorem mem_dropWhile_isBlank {s : List Char} {c : Char} (hmem : c ∈ s) (hc : isBlank c = false) :
    c ∈ s.dropWhile isBlank := by
  rw [← List.takeWhile_append_dropWhile (p := isBlank) (l := s)] at hmem
  rcases List.mem_append.1 hmem with htake | hdrop
  · rw [List.mem_takeWhile_imp htake] at hc
    exact Bool.noConfusion hc
  · exact hdrop

/-- Trimming takes away blanks alone. -/
theorem mem_trim {s : List Char} {c : Char} (hmem : c ∈ s) (hc : isBlank c = false) :
    c ∈ trim s := by
  have hstart : c ∈ trimStart s := mem_dropWhile_isBlank hmem hc
  have hend := mem_dropWhile_isBlank (List.mem_reverse.2 hstart) hc
  exact List.mem_reverse.2 hend

/-- Something is left of a text that is not blank. -/
theorem trim_ne_nil {s : List Char} (h : ∃ c ∈ s, isBlank c = false) : trim s ≠ [] := by
  obtain ⟨c, hmem, hc⟩ := h
  exact List.ne_nil_of_mem (mem_trim hmem hc)

theorem IsSolid.exists_mem {s : List Char} (h : IsSolid s) : ∃ c ∈ s, isBlank c = false := by
  obtain ⟨first, rest, rfl⟩ := List.exists_cons_of_ne_nil h.nonempty
  exact ⟨first, List.mem_cons_self .., h.head first rfl⟩

end Text

namespace Reference

/-- A character that neither opens nor closes anything: no quote and no bracket. -/
def isFree (c : Char) : Bool := c != '"' && c != '\'' && c != '[' && c != ']'

theorem isFree_iff {c : Char} : isFree c = true ↔ c ≠ '"' ∧ c ≠ '\'' ∧ c ≠ '[' ∧ c ≠ ']' := by
  simp [isFree, and_assoc]

theorem openingFrom?_none_cons {c : Char} (hc : isFree c = true) (rest : List Char) :
    openingFrom? none (c :: rest) = (openingFrom? none rest).map fun (b, a) => (c :: b, a) := by
  obtain ⟨h1, h2, h3, -⟩ := isFree_iff.1 hc
  simp [openingFrom?, h1, h2, h3]

/-- The first indexer opens where free characters end at a bracket. -/
theorem opening?_free {front : List Char} (free : ∀ c ∈ front, isFree c = true)
    (after : List Char) : opening? (front ++ '[' :: after) = some (front, after) := by
  unfold opening?
  induction front with
  | nil => simp [openingFrom?]
  | cons c front ih =>
      have hc : isFree c = true := free c (List.mem_cons_self ..)
      rw [List.cons_append, openingFrom?_none_cons hc,
        ih fun d hd => free d (List.mem_cons_of_mem _ hd)]
      rfl

/-- No indexer opens in free characters. -/
theorem opening?_eq_none {s : List Char} (free : ∀ c ∈ s, isFree c = true) :
    opening? s = none := by
  unfold opening?
  induction s with
  | nil => rfl
  | cons c s ih =>
      have hc : isFree c = true := free c (List.mem_cons_self ..)
      rw [openingFrom?_none_cons hc, ih fun d hd => free d (List.mem_cons_of_mem _ hd)]
      rfl

theorem map_cons_append {found longer : Option (List Char × List Char)} {c : Char}
    {b a more : List Char} (h : found.map (fun (b, a) => (c :: b, a)) = some (b, a))
    (hlonger : ∀ b', found = some (b', a) → longer = some (b', a ++ more)) :
    longer.map (fun (b, a) => (c :: b, a)) = some (b, a ++ more) := by
  obtain ⟨⟨b', a'⟩, hfound, e⟩ := Option.map_eq_some_iff.1 h
  cases e
  rw [hlonger b' hfound]
  rfl

/-- What follows a text does not move the bracket that closes the indexer in it. -/
theorem closingFrom?_append_right {quote : Option Char} {inner : Nat} {s b a : List Char}
    (h : closingFrom? quote inner s = some (b, a)) (more : List Char) :
    closingFrom? quote inner (s ++ more) = some (b, a ++ more) := by
  induction s generalizing quote inner b with
  | nil => simp [closingFrom?] at h
  | cons c rest ih =>
      rw [closingFrom?.eq_def] at h
      rw [List.cons_append, closingFrom?.eq_def]
      dsimp only at h ⊢
      cases quote with
      | some mark => exact map_cons_append h fun b' => ih
      | none =>
          dsimp only at h ⊢
          by_cases hclose : c = ']'
          · rw [if_pos hclose] at h ⊢
            cases inner with
            | zero =>
                cases h
                rfl
            | succ n => exact map_cons_append h fun b' => ih
          · rw [if_neg hclose] at h ⊢
            by_cases hopen : c = '['
            · rw [if_pos hopen] at h ⊢
              exact map_cons_append h fun b' => ih
            · rw [if_neg hopen] at h ⊢
              exact map_cons_append h fun b' => ih

/-- Whether a text may stand between brackets: no bracket inside it closes the indexer. -/
def isEnclosed (key : List Char) : Bool := closing? (key ++ [']']) == some (key, [])

theorem closing?_of_isEnclosed {key : List Char} (h : isEnclosed key = true) (rest : List Char) :
    closing? (key ++ ']' :: rest) = some (key, rest) := by
  have hkey : closing? (key ++ [']']) = some (key, []) := eq_of_beq h
  have hrest := closingFrom?_append_right hkey rest
  rw [List.append_assoc, List.singleton_append] at hrest
  exact hrest

/-- Free characters may stand between brackets. -/
theorem isEnclosed_of_free {key : List Char} (free : ∀ c ∈ key, isFree c = true) :
    isEnclosed key = true := by
  have hkey : closing? (key ++ [']']) = some (key, []) := by
    unfold closing?
    induction key with
    | nil => simp [closingFrom?]
    | cons c key ih =>
        obtain ⟨h1, h2, h3, h4⟩ := isFree_iff.1 (free c (List.mem_cons_self ..))
        rw [List.cons_append, closingFrom?.eq_def]
        simp [h1, h2, h3, h4, ih fun d hd => free d (List.mem_cons_of_mem _ hd)]
  simp [isEnclosed, hkey]

theorem closingFrom?_quoted {mark : Char} {inner : List Char} (plain : ∀ c ∈ inner, c ≠ mark)
    (rest : List Char) :
    closingFrom? (some mark) 0 (inner ++ mark :: ']' :: rest) = some (inner ++ [mark], rest) := by
  induction inner with
  | nil => simp [closingFrom?]
  | cons c inner ih =>
      have hc : c ≠ mark := plain c (List.mem_cons_self ..)
      rw [List.cons_append, closingFrom?.eq_def]
      simp [hc, ih fun d hd => plain d (List.mem_cons_of_mem _ hd)]

/-- A text in quotes may stand between brackets. -/
theorem isEnclosed_quoted {mark : Char} (hmark : mark = '"' ∨ mark = '\'') {inner : List Char}
    (plain : ∀ c ∈ inner, c ≠ mark) : isEnclosed (mark :: (inner ++ [mark])) = true := by
  have hkey : closing? (mark :: (inner ++ [mark]) ++ [']']) =
      some (mark :: (inner ++ [mark]), []) := by
    have hinner := closingFrom?_quoted plain []
    unfold closing?
    rw [List.cons_append, closingFrom?.eq_def]
    rcases hmark with rfl | rfl <;> simpa using hinner
  rw [isEnclosed, hkey]
  exact beq_self_eq_true _

end Reference

end Stencil
