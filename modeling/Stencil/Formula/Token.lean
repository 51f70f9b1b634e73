import Stencil.Formula.Operator
import Stencil.Text.Quoted

/-!
The tokens of an expression. At each place the longest token is taken, blanks between tokens are
passed over, and a text with anything else in it has no tokens. Words for operators and literals are
told from references here.
-/

namespace Stencil.Formula

open Text

/-- A token of an expression. -/
inductive Token where
  | or
  | and
  | not
  | compare (comparison : Comparison)
  | plus
  | minus
  | times
  | slash
  | percent
  | openParen
  | closeParen
  | literal (value : Value)
  | reference (text : String)

/-- A blank between tokens. -/
def isGap (c : Char) : Bool := c == ' ' || c == '\t' || c == '\r' || c == '\n'

/-- The operators that consist of signs, with their tokens; longer ones come before those they
start with. -/
def signs : List (List Char × Token) := [
  (['&', '&'], .and), (['|', '|'], .or), (['=', '='], .compare .equal),
  (['!', '='], .compare .notEqual), (['<', '='], .compare .lessEqual),
  (['>', '='], .compare .greaterEqual), (['!'], .not), (['<'], .compare .less),
  (['>'], .compare .greater), (['+'], .plus), (['-'], .minus), (['*'], .times), (['/'], .slash),
  (['%'], .percent), (['('], .openParen), ([')'], .closeParen)]

/-- The sign that a text starts with, and what follows it. -/
def sign? (s : List Char) : Option (Token × List Char) :=
  signs.findSome? fun (sign, token) => (sign.isPrefixOf? s).map fun rest => (token, rest)

/-- Digits after a given character, if there are any; otherwise nothing is taken. -/
def digitsAfter (s : List Char) : List Char × List Char :=
  match s with
  | c :: d :: rest =>
      if isAsciiDigit d then (c :: d :: rest.takeWhile isAsciiDigit, rest.dropWhile isAsciiDigit)
      else ([], s)
  | _ => ([], s)

/-- The fraction that a text starts with, perhaps none, and what follows it. -/
def fraction (s : List Char) : List Char × List Char :=
  if s.head? = some '.' then digitsAfter s else ([], s)

/-- The exponent that a text starts with, perhaps none, and what follows it. -/
def exponent (s : List Char) : List Char × List Char :=
  match s with
  | c :: rest =>
      if c = 'e' ∨ c = 'E' then
        let (digits, after) :=
          if rest.head? = some '+' ∨ rest.head? = some '-' then digitsAfter rest
          else
            (rest.takeWhile isAsciiDigit, rest.dropWhile isAsciiDigit)
        if digits.isEmpty then ([], s) else (c :: digits, after)
      else ([], s)
  | [] => ([], [])

/-- The value of a number: an integer if it writes one in range, otherwise floating point. -/
def numberValue (text : List Char) : Value :=
  match Decimal.readInt? text with
  | some n => .int n
  | none =>
      match Decimal.readFloat? text with
      | some x => .float x
      | none => .null

/-- The number that a text starts with, and what follows it. -/
def number (s : List Char) : Token × List Char :=
  let fraction := fraction (s.dropWhile isAsciiDigit)
  let exponent := exponent fraction.2
  (.literal (numberValue (s.takeWhile isAsciiDigit ++ fraction.1 ++ exponent.1)), exponent.2)

/-- The string in quotes whose opening mark was just passed, and what follows it. An unknown escape
leaves the text as written. -/
def quoted? (mark : Char) (rest : List Char) : Option (Token × List Char) :=
  match quotedText mark [] rest with
  | .ok (text, after) =>
      let value := (unquote? (mark :: (text ++ [mark]))).getD text
      some (.literal (.string (String.ofList value)), after)
  | .error _ => none

/-- The members and indexers that follow a name, and what follows them; `taken` holds the reference
so far, backwards. -/
def accessors (taken s : List Char) : List Char × List Char :=
  match s with
  | '.' :: c :: rest =>
      if isIdentifierStart c then
        accessors ((rest.takeWhile isIdentifierPart).reverse ++ c :: '.' :: taken)
          (rest.dropWhile isIdentifierPart)
      else (taken.reverse, s)
  | '[' :: rest =>
      match _h : rest.dropWhile (· != ']') with
      | close :: after =>
          accessors (close :: ((rest.takeWhile (· != ']')).reverse ++ '[' :: taken)) after
      | [] => (taken.reverse, s)
  | _ => (taken.reverse, s)
termination_by s.length
decreasing_by
  · have := (List.dropWhile_suffix (l := rest) isIdentifierPart).length_le
    simp only [List.length_cons]
    omega
  · have := (List.dropWhile_suffix (l := rest) (· != ']')).length_le
    rw [_h] at this
    simp only [List.length_cons] at this ⊢
    omega

theorem accessors_length (taken s : List Char) : (accessors taken s).2.length ≤ s.length := by
  fun_induction accessors taken s with
  | case1 taken c rest hc ih =>
      have := (List.dropWhile_suffix (l := rest) isIdentifierPart).length_le
      simp only [List.length_cons]
      omega
  | case2 => simp
  | case3 taken rest close after h ih =>
      have := (List.dropWhile_suffix (l := rest) (· != ']')).length_le
      rw [h] at this
      simp only [List.length_cons] at this ⊢
      omega
  | case4 => simp
  | case5 => simp

/-- The token of a word: an operator, a literal or a reference, whatever the case of its letters. -/
def wordToken (word : List Char) : Token :=
  if sameLetters word "or".toList then .or
  else if sameLetters word "and".toList then .and
  else if sameLetters word "not".toList then .not
  else if sameLetters word "true".toList then .literal (.bool true)
  else if sameLetters word "false".toList then .literal (.bool false)
  else if sameLetters word "null".toList then .literal .null
  else .reference (String.ofList word)

/-- The word that a text starts with, and what follows it. -/
def word (first : Char) (rest : List Char) : Token × List Char :=
  let read := accessors ((rest.takeWhile isIdentifierPart).reverse ++ [first])
    (rest.dropWhile isIdentifierPart)
  (wordToken read.1, read.2)

/-- The token that a text starts with, and what follows it. -/
def token? (c : Char) (rest : List Char) : Option (Token × List Char) :=
  if isAsciiDigit c then some (number (c :: rest))
  else if isIdentifierStart c then some (word c rest)
  else if c = '"' ∨ c = '\'' then quoted? c rest
  else sign? (c :: rest)

theorem digitsAfter_length (s : List Char) : (digitsAfter s).2.length ≤ s.length := by
  unfold digitsAfter
  split
  next c d rest =>
    split
    · have := (List.dropWhile_suffix (l := rest) isAsciiDigit).length_le
      simp only [List.length_cons]
      omega
    · simp
  next => simp

theorem fraction_length (s : List Char) : (fraction s).2.length ≤ s.length := by
  unfold fraction
  split
  · exact digitsAfter_length s
  · simp

theorem exponent_length (s : List Char) : (exponent s).2.length ≤ s.length := by
  unfold exponent
  split
  next c rest =>
    split
    · dsimp only
      have h1 := digitsAfter_length rest
      have h2 := (List.dropWhile_suffix (l := rest) isAsciiDigit).length_le
      split <;> split <;> simp only [List.length_cons] <;> omega
    · simp
  next => simp

theorem number_length {c : Char} {rest : List Char} (hc : isAsciiDigit c = true) :
    (number (c :: rest)).2.length ≤ rest.length := by
  have h1 := exponent_length (fraction ((c :: rest).dropWhile isAsciiDigit)).2
  have h2 := fraction_length ((c :: rest).dropWhile isAsciiDigit)
  have h3 : ((c :: rest).dropWhile isAsciiDigit).length ≤ rest.length := by
    rw [List.dropWhile_cons_of_pos hc]
    exact (List.dropWhile_suffix _).length_le
  exact Nat.le_trans h1 (Nat.le_trans h2 h3)

theorem word_length (c : Char) (rest : List Char) : (word c rest).2.length ≤ rest.length :=
  Nat.le_trans (accessors_length _ _) (List.dropWhile_suffix _).length_le

theorem quoted?_length {mark : Char} {rest after : List Char} {token : Token}
    (h : quoted? mark rest = some (token, after)) : after.length ≤ rest.length := by
  unfold quoted? at h
  split at h
  next text a hq =>
    cases h
    exact Nat.le_of_lt (quotedText_length.1 _ _ hq)
  next => cases h

theorem sign?_length {s after : List Char} {token : Token} (h : sign? s = some (token, after)) :
    after.length < s.length := by
  obtain ⟨⟨sign, t⟩, hm, h⟩ := List.exists_of_findSome?_eq_some h
  obtain ⟨r, hr, h⟩ := Option.map_eq_some_iff.1 h
  cases h
  have h1 := congrArg List.length (eq_append_of_isPrefixOf? hr)
  have h2 : 0 < sign.length := by
    simp only [signs, List.mem_cons, Prod.mk.injEq, List.not_mem_nil, or_false] at hm
    rcases hm with h | h | h | h | h | h | h | h | h | h | h | h | h | h | h | h <;> simp [h.1]
  simp only [List.length_append] at h1
  omega

/-- What follows a token is no longer than what followed its first character. -/
theorem token?_length {c : Char} {rest after : List Char} {token : Token}
    (h : token? c rest = some (token, after)) : after.length ≤ rest.length := by
  unfold token? at h
  split at h
  next hc =>
    obtain rfl : (number (c :: rest)).2 = after := congrArg Prod.snd (Option.some.inj h)
    exact number_length hc
  next =>
    split at h
    next =>
      obtain rfl : (word c rest).2 = after := congrArg Prod.snd (Option.some.inj h)
      exact word_length c rest
    next =>
      split at h
      next => exact quoted?_length h
      next => exact Nat.le_of_lt_succ (sign?_length h)

/-- The tokens of a text, or nothing when some part of it is none. -/
def tokens? (s : List Char) : Option (List Token) :=
  match s with
  | [] => some []
  | c :: rest =>
      if isGap c then tokens? rest
      else
        match _h : token? c rest with
        | some (token, after) => (tokens? after).map (token :: ·)
        | none => none
termination_by s.length
decreasing_by
  · simp
  · have := token?_length _h
    simp only [List.length_cons]
    omega

end Stencil.Formula
