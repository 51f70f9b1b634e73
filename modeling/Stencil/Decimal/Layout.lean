import Stencil.Decimal.Shortest

/-!
The text of a floating-point number: its shortest digits laid out either positionally or with an
exponent. What the outputs of the program differ in is one record, `Layout`.
-/

namespace Stencil.Decimal

/-- How a number is written. -/
structure Layout where
  /-- Which of two equally near decimals is written. -/
  tie : Tie
  /-- Whether a number whose first digit has this power of ten is written positionally. -/
  positional : Int → Bool
  /-- Whether a whole number keeps `.0` when written positionally. -/
  keepsPoint : Bool
  /-- Whether an exponent that is not negative has a plus sign. -/
  signsExponent : Bool
  /-- The text of what is no finite number: given the sign of an infinity, or nothing for no
  number at all. -/
  special : Option Bool → String

/-- The decimal digits of a number. -/
def digitsText (n : Nat) : List Char := Nat.toDigits 10 n

/-- The digits written with a point at their place. -/
def positionalText (keepsPoint : Bool) (digits : List Char) (power : Int) : List Char :=
  if 0 ≤ power then
    digits ++ List.replicate power.toNat '0' ++ (if keepsPoint then ['.', '0'] else [])
  else
    let places := power.natAbs
    if places < digits.length then
      digits.take (digits.length - places) ++ '.' :: digits.drop (digits.length - places)
    else '0' :: '.' :: (List.replicate (places - digits.length) '0' ++ digits)

/-- The digits with a point after the first, then the power of ten of the first. -/
def exponentText (signsExponent : Bool) (digits : List Char) (power : Int) : List Char :=
  let mantissa := match digits with
    | first :: second :: rest => first :: '.' :: second :: rest
    | short => short
  let exponent := power + digits.length - 1
  let sign := if exponent < 0 then ['-'] else if signsExponent then ['+'] else []
  mantissa ++ 'e' :: (sign ++ digitsText exponent.natAbs)

/-- The text of a floating-point number. -/
def Layout.write (layout : Layout) (x : Float) : String :=
  match Binary.ofFloat x with
  | .nan => layout.special none
  | .infinite negative => layout.special (some negative)
  | .finite negative mantissa scale =>
      let found := if mantissa = 0 then ⟨0, 0⟩ else shortest layout.tie mantissa scale
      let digits := digitsText found.digits
      let body :=
        if layout.positional (found.power + digits.length - 1) then
          positionalText layout.keepsPoint digits found.power
        else exponentText layout.signsExponent digits found.power
      String.ofList (if negative then '-' :: body else body)

end Stencil.Decimal
