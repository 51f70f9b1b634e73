import Stencil.Json.Number

/-!
The reader of JSON. Loops over characters and elements take at least one character per turn, so that
as many turns as there are characters suffice; values nest up to a fixed depth.
-/

namespace Stencil.Json

open Decimal

/-- A blank between tokens. -/
def isGap (c : Char) : Bool := c == ' ' || c == '\n' || c == '\t' || c == '\r'

/-- The text after blanks. -/
def skipGaps (s : List Char) : List Char := s.dropWhile isGap

/-- The unit that four hexadecimal digits write, and what follows them. -/
def unit? (s : List Char) : Option (Nat × List Char) := do
  let unit ← readDigits? 16 (s.take 4)
  if (s.take 4).length = 4 then some (unit, s.drop 4) else none

/-- The character of a code behind its mark, and what follows it. Characters beyond the basic plane
are written as two units; neither of these stands alone. -/
def codedChar? (s : List Char) : Option (Char × List Char) := do
  let (high, after) ← unit? s
  if 0xDC00 ≤ high ∧ high < 0xE000 then none
  else if 0xD800 ≤ high ∧ high < 0xDC00 then
    match after with
    | '\\' :: 'u' :: rest => do
        let (low, rest) ← unit? rest
        if 0xDC00 ≤ low ∧ low < 0xE000 then
          some (Char.ofNat (0x10000 + (high - 0xD800) * 0x400 + (low - 0xDC00)), rest)
        else none
    | _ => none
  else some (Char.ofNat high, after)

/-- The character of a one-letter escape. -/
def escapedChar? : Char → Option Char
  | '"' => some '"'
  | '\\' => some '\\'
  | '/' => some '/'
  | 'b' => some '\x08'
  | 'f' => some '\x0c'
  | 'n' => some '\n'
  | 'r' => some '\r'
  | 't' => some '\t'
  | _ => none

/-- The string whose opening quote was just passed, and what follows it; `taken` holds what was read,
backwards. -/
def string? : Nat → List Char → List Char → Option (String × List Char)
  | 0, _, _ => none
  | _, taken, '"' :: rest => some (String.ofList taken.reverse, rest)
  | turns + 1, taken, '\\' :: 'u' :: rest => do
      let (c, rest) ← codedChar? rest
      string? turns (c :: taken) rest
  | turns + 1, taken, '\\' :: c :: rest => do
      string? turns ((← escapedChar? c) :: taken) rest
  | turns + 1, taken, c :: rest =>
      if c.toNat < 0x20 then none else string? turns (c :: taken) rest
  | _, _, [] => none

/-- A reader of values: a value and what follows it. -/
abbrev ValueReader := List Char → Option (Value × List Char)

/-- The items of a list after those read, and what follows the list. -/
def items? (value? : ValueReader) : Nat → List Value → List Char → Option (Value × List Char)
  | 0, _, _ => none
  | turns + 1, done, s => do
      let (item, after) ← value? (skipGaps s)
      match skipGaps after with
      | ',' :: rest => items? value? turns (item :: done) rest
      | ']' :: rest => return (.list (item :: done).reverse, rest)
      | _ => none

/-- The entries of a map after those read, and what follows the map. Of two entries with one key the
later counts. -/
def entries? (value? : ValueReader) :
    Nat → List (String × Value) → List Char → Option (Value × List Char)
  | 0, _, _ => none
  | turns + 1, done, s =>
      match skipGaps s with
      | '"' :: rest => do
          let (key, after) ← string? s.length [] rest
          match skipGaps after with
          | ':' :: rest => do
              let (value, after) ← value? (skipGaps rest)
              let done := (key, value) :: done
              match skipGaps after with
              | ',' :: rest => entries? value? turns done rest
              | '}' :: rest => return (Value.ofEntries done.reverse, rest)
              | _ => none
          | _ => none
      | _ => none

/-- The word that must start here, with its value. -/
def word? (word : String) (value : Value) (s : List Char) : Option (Value × List Char) :=
  (word.toList.isPrefixOf? s).map fun rest => (value, rest)

/-- The value that starts here, with lists and maps in it up to a depth. -/
def valueWithin? : Nat → ValueReader
  | 0, _ => none
  | depth + 1, s =>
      match s with
      | '"' :: rest => (string? s.length [] rest).map fun (text, after) => (.string text, after)
      | '[' :: rest =>
          if depth = 0 then none
          else
            match skipGaps rest with
            | ']' :: after => some (.list [], after)
            | _ => items? (valueWithin? depth) s.length [] rest
      | '\x7b' :: rest =>
          if depth = 0 then none
          else
            match skipGaps rest with
            | '}' :: after => some (.map [], after)
            | _ => entries? (valueWithin? depth) s.length [] rest
      | 'n' :: _ => word? "null" .null s
      | 't' :: _ => word? "true" (.bool true) s
      | 'f' :: _ => word? "false" (.bool false) s
      | _ => do
          let (numeral, after) ← numeral? s
          return (← numeral.value?, after)

/-- How deep values nest, the outermost value counted. -/
def maxDepth : Nat := 128

/-- The value that a text writes. -/
def read? (text : String) : Option Value := do
  let (value, after) ← valueWithin? maxDepth (skipGaps text.toList)
  if (skipGaps after).isEmpty then some value else none

end Stencil.Json
