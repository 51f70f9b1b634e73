import Stencil.Floating
import Stencil.Text.Class

/-!
Reading of numbers: digits of a base, integers of 64 bits, and decimal numbers rounded to the
nearest floating-point number.
-/

namespace Stencil.Decimal

/-- The value of a digit in bases up to sixteen. -/
def digit? (base : Nat) (c : Char) : Option Nat :=
  let value :=
    if Text.isAsciiDigit c then some (c.toNat - '0'.toNat)
    else if 'a' ≤ c ∧ c ≤ 'f' then some (c.toNat - 'a'.toNat + 10)
    else if 'A' ≤ c ∧ c ≤ 'F' then some (c.toNat - 'A'.toNat + 10)
    else none
  value.filter (· < base)

/-- The number that digits write after the digits of `high`. -/
def readAfter? (base high : Nat) : List Char → Option Nat
  | [] => some high
  | c :: rest => do readAfter? base (high * base + (← digit? base c)) rest

/-- The number that one or more digits write. -/
def readDigits? (base : Nat) (digits : List Char) : Option Nat :=
  if digits.isEmpty then none else readAfter? base 0 digits

/-- A sign, if there is one, and what follows it. -/
def takeSign : List Char → Bool × List Char
  | '-' :: rest => (true, rest)
  | '+' :: rest => (false, rest)
  | rest => (false, rest)

/-- The integer as a word, if it is in range. -/
def word? (n : Int) : Option Int64 :=
  if Int64.minValue.toInt ≤ n ∧ n ≤ Int64.maxValue.toInt then some (Int64.ofInt n) else none

/-- An integer: digits after at most one sign, in the range of 64 bits. -/
def readInt? (s : List Char) : Option Int64 := do
  let (negative, digits) := takeSign s
  let magnitude ← readDigits? 10 digits
  word? (if negative then -(magnitude : Int) else magnitude)

/-- The floating-point number nearest to `mantissa · 10 ^ exponent`. Exponents far beyond the
range of the format are settled by the number of digits alone. -/
def nearest (mantissa : Nat) (exponent : Int) : Float :=
  if mantissa = 0 then 0
  else
    let magnitude := (Nat.log2 mantissa : Int) / 4 + exponent
    if 400 < magnitude then (1.0 : Float) / 0.0
    else if (Nat.log2 mantissa : Int) + exponent < -400 then 0
    else if exponent < 0 then Float.ofScientific mantissa true exponent.natAbs
    else Float.ofScientific mantissa false exponent.natAbs

/-- Digits before and after a point and the exponent of a decimal number. -/
structure Parts where
  whole : List Char
  fraction : List Char
  exponent : Int

/-- The exponent that follows the digits of a number; nothing may follow it. -/
def readExponent? : List Char → Option Int
  | [] => some 0
  | c :: rest =>
      if c = 'e' ∨ c = 'E' then do
        let (negative, digits) := takeSign rest
        let magnitude ← readDigits? 10 digits
        some (if negative then -(magnitude : Int) else magnitude)
      else none

/-- An unsigned decimal number: digits with at most one point, then perhaps an exponent. -/
def readParts? (s : List Char) : Option Parts := do
  let whole := s.takeWhile Text.isAsciiDigit
  let afterWhole := s.dropWhile Text.isAsciiDigit
  let (fraction, afterFraction) := match afterWhole with
    | '.' :: rest => (rest.takeWhile Text.isAsciiDigit, rest.dropWhile Text.isAsciiDigit)
    | rest => ([], rest)
  if whole.isEmpty && fraction.isEmpty then none
  else some ⟨whole, fraction, ← readExponent? afterFraction⟩

/-- The value of a decimal number. -/
def Parts.value (parts : Parts) : Float :=
  nearest ((readAfter? 10 0 (parts.whole ++ parts.fraction)).getD 0)
    (parts.exponent - parts.fraction.length)

/-- A floating-point number: a decimal number, `inf`, `infinity` or `nan` after at most one
sign. -/
def readFloat? (s : List Char) : Option Floating := do
  let (negative, rest) := takeSign s
  let word := rest.map Char.toLower
  let magnitude : Floating ←
    if word = "inf".toList ∨ word = "infinity".toList then some ((1.0 / 0.0 : Float) : Floating)
    else if word = "nan".toList then some (.undefined false)
    else (readParts? rest).map fun parts => (parts.value : Floating)
  some (if negative then magnitude.neg else magnitude)

end Stencil.Decimal
