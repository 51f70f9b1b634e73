import Stencil.Text.Basic

/-!
Splitting of expressions where a sign stands outside quotes, brackets and parentheses: filters stand
behind single bars, the arguments of a filter behind a colon with commas between. Nothing of a text
is lost by splitting: the pieces, joined by the sign, are the text.
-/

namespace Stencil.Reference

open Text

/-- Where a scan of an expression stands: the open quote, whether a backslash in it escapes the next
character, and how many brackets and parentheses are open. A closing bracket too many is ignored. -/
structure Nesting where
  quote : Option Char := none
  escaping : Bool := false
  depth : Nat := 0
deriving Repr, DecidableEq

/-- The place after one more character. -/
def Nesting.step (nesting : Nesting) (c : Char) : Nesting :=
  match nesting.quote with
  | some mark =>
      if nesting.escaping then { nesting with escaping := false }
      else if c = '\\' then { nesting with escaping := true }
      else if c = mark then { nesting with quote := none }
      else nesting
  | none =>
      if c = '"' ∨ c = '\'' then { nesting with quote := some c }
      else if c = '[' ∨ c = '(' then { nesting with depth := nesting.depth + 1 }
      else if c = ']' ∨ c = ')' then { nesting with depth := nesting.depth - 1 }
      else nesting

/-- Whether a sign splits here. -/
def Nesting.isOutside (nesting : Nesting) : Bool := nesting.quote.isNone && nesting.depth == 0

/-- Characters put before the first piece. -/
def onto (front : List Char) : List (List Char) → List (List Char)
  | [] => [front]
  | piece :: pieces => (front ++ piece) :: pieces

/-- The pieces of a text from a place on. A doubled sign does not split where only single ones do. -/
def splitFrom (mark : Char) (single : Bool) (nesting : Nesting) : List Char → List (List Char)
  | [] => [[]]
  | [c] => if nesting.isOutside && c == mark then [[], []] else [[c]]
  | c :: d :: rest =>
      if nesting.isOutside && c == mark then
        if single && d == mark then onto [c, d] (splitFrom mark single nesting rest)
        else [] :: splitFrom mark single nesting (d :: rest)
      else onto [c] (splitFrom mark single (nesting.step c) (d :: rest))

/-- The pieces of a text between the signs outside quotes, brackets and parentheses. -/
def split (mark : Char) (single : Bool) (s : List Char) : List (List Char) :=
  splitFrom mark single {} s

theorem splitFrom_ne_nil (mark : Char) (single : Bool) (nesting : Nesting) (s : List Char) :
    splitFrom mark single nesting s ≠ [] := by
  have onto_ne (front : List Char) (pieces : List (List Char)) : onto front pieces ≠ [] := by
    cases pieces <;> simp [onto]
  fun_cases splitFrom mark single nesting s with
  | case1 => simp
  | case2 => simp
  | case3 => simp
  | case4 => exact onto_ne _ _
  | case5 => simp
  | case6 => exact onto_ne _ _

theorem joinWith_onto {mark : Char} {front : List Char} {pieces : List (List Char)}
    (h : pieces ≠ []) : joinWith mark (onto front pieces) = front ++ joinWith mark pieces := by
  match pieces with
  | [] => contradiction
  | [piece] => rfl
  | piece :: second :: rest => simp [onto, joinWith]

theorem joinWith_cons {mark : Char} {piece : List Char} {pieces : List (List Char)}
    (h : pieces ≠ []) : joinWith mark (piece :: pieces) = piece ++ mark :: joinWith mark pieces := by
  cases pieces with
  | nil => contradiction
  | cons second rest => rfl

theorem joinWith_splitFrom (mark : Char) (single : Bool) (nesting : Nesting) (s : List Char) :
    joinWith mark (splitFrom mark single nesting s) = s := by
  fun_induction splitFrom mark single nesting s with
  | case1 => rfl
  | case2 nesting c h =>
      simp only [Bool.and_eq_true, beq_iff_eq] at h
      simp [joinWith, h.2]
  | case3 => rfl
  | case4 nesting c d rest h hd ih =>
      rw [joinWith_onto (splitFrom_ne_nil _ _ _ _), ih]
      rfl
  | case5 nesting c d rest h hd ih =>
      rw [joinWith_cons (splitFrom_ne_nil _ _ _ _), ih]
      simp only [Bool.and_eq_true, beq_iff_eq] at h
      simp [h.2]
  | case6 nesting c d rest h ih =>
      rw [joinWith_onto (splitFrom_ne_nil _ _ _ _), ih]
      rfl

/-- The pieces of a text, joined by the sign, are the text. -/
theorem joinWith_split (mark : Char) (single : Bool) (s : List Char) :
    joinWith mark (split mark single s) = s :=
  joinWith_splitFrom mark single {} s

/-- The number of characters of all pieces. -/
def total (pieces : List (List Char)) : Nat :=
  pieces.foldr (fun piece size => piece.length + size) 0

theorem total_cons (piece : List Char) (pieces : List (List Char)) :
    total (piece :: pieces) = piece.length + total pieces := rfl

theorem length_joinWith (mark : Char) {pieces : List (List Char)} (h : pieces ≠ []) :
    total pieces + pieces.length = (joinWith mark pieces).length + 1 := by
  induction pieces with
  | nil => contradiction
  | cons piece rest ih =>
      cases rest with
      | nil => simp [total, joinWith]
      | cons second rest =>
          have := ih (List.cons_ne_nil _ _)
          rw [total_cons, joinWith_cons (List.cons_ne_nil _ _)]
          simp only [List.length_append, List.length_cons] at this ⊢
          omega

/-- The pieces of a text have all its characters but the signs between them. -/
theorem total_split (mark : Char) (single : Bool) (s : List Char) :
    total (split mark single s) + (split mark single s).length = s.length + 1 := by
  have := length_joinWith mark (splitFrom_ne_nil mark single {} s)
  rwa [joinWith_splitFrom] at this

/-- The segments of an expression between single bars. -/
def segments (expression : List Char) : List (List Char) := split '|' true expression

/-- The name of a filter and the texts of its arguments. Empty arguments do not count. -/
def filterCall (segment : List Char) : List Char × List (List Char) :=
  let segment := trim segment
  match split ':' false segment with
  | name :: _ :: _ =>
      let arguments := split ',' false (segment.drop (name.length + 1))
      (trim name, (arguments.map trim).filter (!·.isEmpty))
  | [name] => (trim name, [])
  | [] => ([], [])

theorem total_map_trim_le (pieces : List (List Char)) : total (pieces.map trim) ≤ total pieces := by
  induction pieces with
  | nil => exact Nat.le_refl _
  | cons piece rest ih =>
      have := length_trim_le piece
      simp only [List.map_cons, total_cons]
      omega

theorem total_filter_le (keep : List Char → Bool) (pieces : List (List Char)) :
    total (pieces.filter keep) ≤ total pieces := by
  induction pieces with
  | nil => exact Nat.le_refl _
  | cons piece rest ih =>
      rw [List.filter_cons]
      split <;> simp only [total_cons] <;> omega

/-- The arguments of a filter are no longer than its segment. -/
theorem total_filterCall_le (segment : List Char) :
    total (filterCall segment).2 ≤ segment.length := by
  have h0 := length_trim_le segment
  unfold filterCall
  dsimp only
  split
  next name second rest _ =>
    have h1 := total_filter_le (!·.isEmpty)
      ((split ',' false ((trim segment).drop (name.length + 1))).map trim)
    have h2 := total_map_trim_le (split ',' false ((trim segment).drop (name.length + 1)))
    have h3 := total_split ',' false ((trim segment).drop (name.length + 1))
    have h4 := List.length_pos_iff.2
      (splitFrom_ne_nil ',' false {} ((trim segment).drop (name.length + 1)))
    simp only [split, List.length_drop] at h1 h2 h3 h4 ⊢
    omega
  next => simp [total]
  next => simp [total]

/-- Two or more segments are together shorter than the expression. -/
theorem total_segments_lt {text first second : List Char} {rest : List (List Char)}
    (h : segments text = first :: second :: rest) :
    first.length + total (second :: rest) < text.length := by
  have := total_split '|' true text
  rw [← segments, h, total_cons] at this
  simp only [List.length_cons] at this
  omega

end Stencil.Reference
