import Stencil.Json.Document

/-!
Numbers in JSON. An integer in the range of 64 bits stays one; every other number becomes floating
point: as many of its digits as fit into an unsigned word, scaled by one power of ten. Digits that do
not fit count for the size of the number alone.
-/

namespace Stencil.Json

open Decimal

/-- A number as written. -/
structure Numeral where
  negative : Bool
  whole : List Char
  fraction : Option (List Char)
  /-- Whether the exponent is negative, and its digits. -/
  exponent : Option (Bool × List Char)
deriving Repr, DecidableEq

/-- The digits taken into a word until one does not fit, and the digits that are left. -/
def absorb (word : Nat) : List Char → Nat × List Char
  | [] => (word, [])
  | c :: rest =>
      let next := word * 10 + (c.toNat - '0'.toNat)
      if next < Nat.pow 2 64 then absorb next rest else (word, c :: rest)

/-- The power of ten of a number as floating point. -/
def powerOfTen (exponent : Nat) : Float := nearest 1 exponent

/-- A number scaled by a power of ten; nothing when it becomes too large. Very small powers are taken
in steps. -/
def scale? (x : Float) (exponent : Int) : Option Float :=
  if exponent.natAbs ≤ 308 then
    if exponent < 0 then some (x / powerOfTen exponent.natAbs)
    else
      let scaled := x * powerOfTen exponent.natAbs
      if scaled.isInf then none else some scaled
  else if x == 0 then some x
  else if 0 ≤ exponent then none
  else scale? (x / powerOfTen 308) (exponent + 308)
termination_by exponent.natAbs

/-- The largest exponent that is read digit by digit. -/
def maxExponent : Nat := Nat.pow 2 31 - 1

/-- The size of a number with a fraction, an exponent, or too many digits. -/
def Numeral.size? (numeral : Numeral) : Option Float :=
  let (word, dropped) := absorb 0 numeral.whole
  let fraction := numeral.fraction.getD []
  let (word, left) := absorb word fraction
  let shift : Int := (dropped.length : Int) - ((fraction.length - left.length : Nat) : Int)
  match numeral.exponent with
  | none => scale? (nearest word 0) shift
  | some (negative, digits) =>
      let exponent := (readAfter? 10 0 digits).getD 0
      if maxExponent < exponent then if word = 0 ∨ negative then some 0 else none
      else scale? (nearest word 0) (if negative then shift - exponent else shift + exponent)

/-- The number of a document that a numeral writes; nothing when it is too large. A negative zero is
floating point. -/
def Numeral.number? (numeral : Numeral) : Option Number :=
  let (word, dropped) := absorb 0 numeral.whole
  let float (size : Float) := Number.ofFloat? (if numeral.negative then -size else size)
  if numeral.fraction.isNone && numeral.exponent.isNone && dropped.isEmpty then
    if numeral.negative then
      match word? (-(word : Int)) with
      | some n => if below : n < 0 then some (.negative n below) else float 0
      | none => float (nearest word 0)
    else some (.natural (.ofNat word))
  else numeral.size?.bind float

/-- The value of a number; nothing when it is too large. -/
def Numeral.value? (numeral : Numeral) : Option Value := numeral.number?.map Number.value

/-- The number that starts here, and what follows it. Needless zeros are no number. -/
def numeral? (s : List Char) : Option (Numeral × List Char) :=
  let negative := s.head? == some '-'
  let s := if negative then s.drop 1 else s
  let digits (s : List Char) := (s.takeWhile Text.isAsciiDigit, s.dropWhile Text.isAsciiDigit)
  let (whole, s) := digits s
  if whole.isEmpty || (whole.length > 1 && whole.head? == some '0') then none
  else do
    let (fraction, s) ← match s with
      | '.' :: rest =>
          let (fraction, rest) := digits rest
          if fraction.isEmpty then none else some (some fraction, rest)
      | _ => some (none, s)
    let (exponent, s) ← match s with
      | c :: rest =>
          if c = 'e' ∨ c = 'E' then
            let (negative, rest) := takeSign rest
            let (exponent, rest) := digits rest
            if exponent.isEmpty then none else some (some (negative, exponent), rest)
          else some (none, s)
      | [] => some (none, s)
    return (⟨negative, whole, fraction, exponent⟩, s)

end Stencil.Json
