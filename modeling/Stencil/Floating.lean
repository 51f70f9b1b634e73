/-!
Floating-point numbers as values hold them. Beside the numbers and the infinities there are two
undefined numbers, told apart by a sign. Negation turns the sign, division hands it on and nearness
sees it; nothing else does.
-/

namespace Stencil

/-- A floating-point number. -/
structure Floating where
  number : Float
  /-- The sign of an undefined number; every other number has its sign in itself. -/
  negative : Bool := false

namespace Floating

instance : Coe Float Floating := ⟨fun x => ⟨x, false⟩⟩

/-- The number nearest to an integer, the even one of two that are equally near. -/
def ofInt64 (n : Int64) : Floating := ⟨.ofModel (.ofInt64 n), false⟩

/-- The number nearest to `mantissa · 2 ^ scale`, the even one of two that are equally near. -/
def scaled (mantissa : Nat) (scale : Int) : Float :=
  .ofModel (.pack (.round .binary64 .positive mantissa scale))

/-- Whether this is an undefined number. -/
def isUndefined (x : Floating) : Bool := x.number.isNaN

/-- The undefined number of a sign. -/
def undefined (negative : Bool) : Floating := ⟨0.0 / 0.0, negative⟩

/-- The number with the other sign. -/
def neg (x : Floating) : Floating :=
  if x.isUndefined then undefined !x.negative else ⟨-x.number, false⟩

/-- The quotient. An undefined operand is the result, the first one before the second; where both
operands are defined and the quotient is not, it is negative. -/
def div (x y : Floating) : Floating :=
  if x.isUndefined then x
  else if y.isUndefined then y
  else ⟨x.number / y.number, (x.number / y.number).isNaN⟩

/-- The bits of a number in the order of the numbers. An undefined number stands beyond the infinity
of its sign. -/
def orderedBits (x : Floating) : UInt64 :=
  let bits :=
    if x.isUndefined && x.negative then x.number.toBits ||| 0x8000000000000000 else x.number.toBits
  if 0x8000000000000000 ≤ bits then ~~~bits else bits ^^^ 0x8000000000000000

/-- Whether two numbers are equal or at most two steps apart in their order. -/
def nearlyEqual (x y : Floating) : Bool :=
  x.number == y.number || x.orderedBits - y.orderedBits ≤ 2 || y.orderedBits - x.orderedBits ≤ 2

end Floating

end Stencil
