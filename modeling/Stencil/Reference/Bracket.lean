import Stencil.Text.Basic

/-!
Brackets of indexers in an expression: where the first one outside quotes opens, and where an open
one closes, with inner brackets and quotes passed over. Quotes know no escapes here.
-/

namespace Stencil.Reference

/-- The texts before and after the first bracket that opens outside quotes, given the open quote. -/
def openingFrom? (quote : Option Char) : List Char → Option (List Char × List Char)
  | [] => none
  | c :: rest =>
      match quote with
      | some mark =>
          (openingFrom? (if c = mark then none else some mark) rest).map fun (b, a) => (c :: b, a)
      | none =>
          if c = '[' then some ([], rest)
          else
            (openingFrom? (if c = '"' ∨ c = '\'' then some c else none) rest).map fun (b, a) =>
              (c :: b, a)

/-- The texts before and after the first bracket that opens outside quotes. -/
def opening? (s : List Char) : Option (List Char × List Char) := openingFrom? none s

/-- The texts before and after the bracket that closes the indexer a text stands in, given the open
quote and the number of inner brackets that are open. -/
def closingFrom? (quote : Option Char) (inner : Nat) : List Char → Option (List Char × List Char)
  | [] => none
  | c :: rest =>
      match quote with
      | some mark =>
          (closingFrom? (if c = mark then none else some mark) inner rest).map fun (b, a) =>
            (c :: b, a)
      | none =>
          if c = ']' then
            match inner with
            | 0 => some ([], rest)
            | n + 1 => (closingFrom? none n rest).map fun (b, a) => (c :: b, a)
          else if c = '[' then (closingFrom? none (inner + 1) rest).map fun (b, a) => (c :: b, a)
          else
            (closingFrom? (if c = '"' ∨ c = '\'' then some c else none) inner rest).map
              fun (b, a) => (c :: b, a)

/-- The texts before and after the bracket that closes the indexer a text stands in. -/
def closing? (s : List Char) : Option (List Char × List Char) := closingFrom? none 0 s

theorem openingFrom?_append {quote : Option Char} {s b a : List Char}
    (h : openingFrom? quote s = some (b, a)) : s = b ++ '[' :: a := by
  induction s generalizing quote b with
  | nil => simp [openingFrom?] at h
  | cons c rest ih =>
      rw [openingFrom?.eq_def] at h
      dsimp only at h
      split at h
      next =>
        obtain ⟨⟨b', a'⟩, hr, e⟩ := Option.map_eq_some_iff.1 h
        cases e
        simp [ih hr]
      next =>
        split at h
        next hc => cases h; simp [hc]
        next =>
          obtain ⟨⟨b', a'⟩, hr, e⟩ := Option.map_eq_some_iff.1 h
          cases e
          simp [ih hr]

/-- A text is what comes before its first indexer, the bracket, and what comes after. -/
theorem opening?_append {s b a : List Char} (h : opening? s = some (b, a)) : s = b ++ '[' :: a :=
  openingFrom?_append h

theorem closingFrom?_append {quote : Option Char} {inner : Nat} {s b a : List Char}
    (h : closingFrom? quote inner s = some (b, a)) : s = b ++ ']' :: a := by
  induction s generalizing quote inner b with
  | nil => simp [closingFrom?] at h
  | cons c rest ih =>
      rw [closingFrom?.eq_def] at h
      dsimp only at h
      split at h
      next =>
        obtain ⟨⟨b', a'⟩, hr, e⟩ := Option.map_eq_some_iff.1 h
        cases e
        simp [ih hr]
      next =>
        split at h
        next hc =>
          split at h
          next => cases h; simp [hc]
          next =>
            obtain ⟨⟨b', a'⟩, hr, e⟩ := Option.map_eq_some_iff.1 h
            cases e
            simp [ih hr]
        next =>
          split at h
          all_goals
            obtain ⟨⟨b', a'⟩, hr, e⟩ := Option.map_eq_some_iff.1 h
            cases e
            simp [ih hr]

/-- A text inside an indexer is the key, the bracket, and what comes after. -/
theorem closing?_append {s b a : List Char} (h : closing? s = some (b, a)) : s = b ++ ']' :: a :=
  closingFrom?_append h

/-- An expression that starts with an indexed target. -/
structure Indexed where
  target : List Char
  key : List Char
  /-- What follows the indexer: nothing, a member or another indexer. -/
  rest : List Char
deriving Repr, DecidableEq

/-- The target, key and accessors of an expression that consists of a target, an indexer and
further accessors. -/
def indexed? (s : List Char) : Option Indexed := do
  let (before, after) ← opening? s
  let (key, behind) ← closing? after
  let target := Text.trim before
  let rest := Text.trimStart behind
  if target.isEmpty || !(rest.isEmpty || rest.head? == some '.' || rest.head? == some '[') then none
  else some ⟨target, key, rest⟩

/-- Target, key and accessors are shorter than the expression. -/
theorem indexed?_length {s : List Char} {found : Indexed} (h : indexed? s = some found) :
    found.target.length < s.length ∧ found.key.length < s.length ∧
      found.rest.length < s.length := by
  unfold indexed? at h
  obtain ⟨⟨before, after⟩, h1, h⟩ := Option.bind_eq_some_iff.1 h
  obtain ⟨⟨key, behind⟩, h2, h⟩ := Option.bind_eq_some_iff.1 h
  dsimp only at h
  split at h
  next => cases h
  next =>
    cases h
    have e1 := congrArg List.length (opening?_append h1)
    have e2 := congrArg List.length (closing?_append h2)
    have e3 := Text.length_trim_le before
    have e4 := Text.length_trimStart_le behind
    simp only [List.length_append, List.length_cons] at e1 e2 ⊢
    omega

end Stencil.Reference
