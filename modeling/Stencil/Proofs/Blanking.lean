import Stencil.Proofs.Resolution.Quoting

/-!
Which characters of an expression the gate sees. It reads quotes without escapes, from the front, so that what it
sees of a character depends on the quote that is open there and on nothing behind it.
-/

namespace Stencil

namespace Reference

/-- Where nothing is open, or one of the two marks. -/
def IsQuote (quote : Option Char) : Prop := ∀ mark ∈ quote, mark = '"' ∨ mark = '\''

theorem isQuote_none : IsQuote none := fun _ h => nomatch h

theorem IsQuote.plainQuote {quote : Option Char} (h : IsQuote quote) (c : Char) : IsQuote (plainQuote quote c) := by
  unfold Reference.plainQuote
  split
  next mark =>
    split
    · exact isQuote_none
    · exact h
  next =>
    split
    next hc =>
      rintro _ ⟨⟩
      exact hc
    next => exact isQuote_none

theorem IsQuote.foldl {quote : Option Char} (h : IsQuote quote) (s : List Char) :
    IsQuote (s.foldl Reference.plainQuote quote) := by
  induction s generalizing quote with
  | nil => exact h
  | cons c rest ih => exact ih (h.plainQuote c)

/-- Anything but a mark leaves the open quote as it is. -/
theorem IsQuote.plainQuote_eq {quote : Option Char} (h : IsQuote quote) {c : Char} (hc : c ≠ '"' ∧ c ≠ '\'') :
    Reference.plainQuote quote c = quote := by
  unfold Reference.plainQuote
  split
  next mark =>
    refine if_neg ?_
    rintro rfl
    exact (h c rfl).elim hc.1 hc.2
  next => exact if_neg (not_or_intro hc.1 hc.2)

/-- A text without marks. -/
def Markless (s : List Char) : Prop := ∀ c ∈ s, c ≠ '"' ∧ c ≠ '\''

theorem Markless.foldl_plainQuote {s : List Char} (h : Markless s) {quote : Option Char} (hquote : IsQuote quote) :
    s.foldl plainQuote quote = quote := by
  induction s with
  | nil => rfl
  | cons c rest ih =>
      obtain ⟨hc, hrest⟩ := List.forall_mem_cons.1 h
      rw [List.foldl_cons, hquote.plainQuote_eq hc]
      exact ih hrest

end Reference

namespace Gate

open Reference (plainQuote IsQuote Markless)

/-- What the gate sees of a character behind an open quote. -/
def shown (quote : Option Char) (c : Char) : Char :=
  match quote with
  | some mark => if c = mark then c else ' '
  | none => c

theorem shown_eq (quote : Option Char) (c : Char) : shown quote c = c ∨ shown quote c = ' ' := by
  unfold shown
  split
  next mark =>
    split
    · exact Or.inl rfl
    · exact Or.inr rfl
  next => exact Or.inl rfl

/-- Of anything but marks the gate sees what stands outside quotes. -/
theorem quote_of_shown {quote : Option Char} (hquote : IsQuote quote) {c : Char} (hblank : c ≠ ' ')
    (hc : c ≠ '"' ∧ c ≠ '\'') (h : shown quote c = c) : quote = none := by
  unfold shown at h
  split at h
  next mark =>
    split at h
    next hmark =>
      subst hmark
      exact ((hquote c rfl).elim hc.1 hc.2).elim
    next => exact absurd h.symm hblank
  next => rfl

theorem blankQuotedFrom_cons (quote : Option Char) (c : Char) (rest : List Char) :
    blankQuotedFrom quote (c :: rest) = shown quote c :: blankQuotedFrom (plainQuote quote c) rest := by
  cases quote with
  | none => rfl
  | some mark =>
      rw [blankQuotedFrom, shown, plainQuote]
      split
      · rfl
      · rfl

theorem blankQuotedFrom_append (quote : Option Char) (s t : List Char) :
    blankQuotedFrom quote (s ++ t) = blankQuotedFrom quote s ++ blankQuotedFrom (s.foldl plainQuote quote) t := by
  induction s generalizing quote with
  | nil => rfl
  | cons c rest ih =>
      rw [List.cons_append, blankQuotedFrom_cons, blankQuotedFrom_cons, ih]
      rfl

theorem length_blankQuotedFrom (quote : Option Char) (s : List Char) :
    (blankQuotedFrom quote s).length = s.length := by
  induction s generalizing quote with
  | nil => rfl
  | cons c rest ih => rw [blankQuotedFrom_cons, List.length_cons, List.length_cons, ih]

theorem blankQuoted_split (front : List Char) (c : Char) (back : List Char) :
    blankQuoted (front ++ c :: back) = blankQuoted front ++ shown (front.foldl plainQuote none) c ::
      blankQuotedFrom ((front ++ [c]).foldl plainQuote none) back := by
  unfold blankQuoted
  rw [blankQuotedFrom_append, blankQuotedFrom_cons, List.foldl_append]
  rfl

/-- What the gate sees at a place. -/
theorem getElem?_blankQuoted (front : List Char) (c : Char) (back : List Char) :
    (blankQuoted (front ++ c :: back))[front.length]? = some (shown (front.foldl plainQuote none) c) := by
  have hlength : (blankQuoted front).length = front.length := length_blankQuotedFrom none front
  rw [blankQuoted_split, List.getElem?_append_right (Nat.le_of_eq hlength), hlength, Nat.sub_self]
  rfl

/-- Text without marks is seen as it stands. -/
theorem blankQuotedFrom_none {s : List Char} (h : Markless s) : blankQuotedFrom none s = s := by
  induction s with
  | nil => rfl
  | cons c rest ih =>
      obtain ⟨hc, hrest⟩ := List.forall_mem_cons.1 h
      rw [blankQuotedFrom_cons, Reference.isQuote_none.plainQuote_eq hc, ih hrest]
      rfl

/-- The first character is seen as it stands, or as a blank. -/
theorem head?_blankQuotedFrom {quote : Option Char} {s : List Char} {c : Char}
    (h : (blankQuotedFrom quote s).head? = some c) : s.head? = some c ∨ c = ' ' := by
  cases s with
  | nil => cases h
  | cons first rest =>
      rw [blankQuotedFrom_cons] at h
      cases h
      rcases shown_eq quote first with hseen | hblank
      · exact Or.inl (congrArg some hseen.symm)
      · exact Or.inr hblank

/-- The last character is seen as it stands, or as a blank. -/
theorem getLast?_blankQuotedFrom {quote : Option Char} {s : List Char} {c : Char}
    (h : (blankQuotedFrom quote s).getLast? = some c) : s.getLast? = some c ∨ c = ' ' := by
  rcases List.eq_nil_or_concat s with rfl | ⟨front, last, rfl⟩
  · cases h
  · rw [List.concat_eq_append, blankQuotedFrom_append, blankQuotedFrom_cons, List.getLast?_append] at h
    cases h
    rw [List.concat_eq_append, List.getLast?_concat]
    rcases shown_eq (front.foldl plainQuote quote) last with hseen | hblank
    · exact Or.inl (congrArg some hseen.symm)
    · exact Or.inr hblank

end Gate

end Stencil
