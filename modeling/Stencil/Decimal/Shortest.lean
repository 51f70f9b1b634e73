/-!
The fewest decimal digits that read back to the same floating-point number. A positive number is
taken apart into `m · 2 ^ q`; the reals that round to it form an interval, with its ends when `m` is
even. For one digit, two digits and so on the two neighbours of the number on that decimal grid are
tested in exact arithmetic; the first grid with a neighbour in the interval gives the digits, and of
two neighbours the nearer.
-/

namespace Stencil.Decimal

/-- A floating-point number taken apart: `mantissa · 2 ^ scale` with a sign, an infinity, or no
number. -/
inductive Binary where
  | finite (negative : Bool) (mantissa : Nat) (scale : Int)
  | infinite (negative : Bool)
  | nan
deriving Repr, DecidableEq

/-- The parts of a floating-point number, read off its bits. -/
def Binary.ofFloat (x : Float) : Binary :=
  let bits := x.toBits.toNat
  let negative := bits / Nat.pow 2 63 = 1
  let biased : Nat := bits / Nat.pow 2 52 % Nat.pow 2 11
  let fraction : Nat := bits % Nat.pow 2 52
  if biased = Nat.pow 2 11 - 1 then
    if fraction = 0 then .infinite negative else .nan
  else if biased = 0 then .finite negative fraction (-1074)
  else .finite negative (fraction + Nat.pow 2 52) ((biased : Int) - 1075)

/-- Decimal digits and the power of ten they are multiplied by. -/
structure Digits where
  digits : Nat
  power : Int
deriving Repr, DecidableEq

/-- What decides between two decimals that are equally near: the larger one, or the even one. -/
inductive Tie where
  | up
  | even
deriving Repr, DecidableEq

/-- The reals `low / unit` to `high / unit` around `value / unit` that round to one floating-point
number; the ends belong to it when `closed`. -/
structure Interval where
  low : Nat
  value : Nat
  high : Nat
  unit : Nat
  closed : Bool

/-- The interval of a positive number. Below a power of two the neighbour is half as far away. -/
def Interval.of (mantissa : Nat) (scale : Int) : Interval :=
  let below := if mantissa = Nat.pow 2 52 ∧ -1074 < scale then 1 else 2
  let up := Nat.pow 2 (scale - 2).toNat
  { low := (4 * mantissa - below) * up
    value := 4 * mantissa * up
    high := (4 * mantissa + 2) * up
    unit := Nat.pow 2 (2 - scale).toNat
    closed := mantissa % 2 = 0 }

/-- Whether `digits · 10 ^ power` lies in the interval. -/
def Interval.holds (i : Interval) (d : Digits) : Bool :=
  let point := d.digits * Nat.pow 10 d.power.toNat * i.unit
  let down := Nat.pow 10 (-d.power).toNat
  if i.closed then i.low * down ≤ point && point ≤ i.high * down
  else i.low * down < point && point < i.high * down

/-- The decimal exponent of the value: the power of ten of its first digit. -/
def Interval.exponent (i : Interval) : Int :=
  if i.unit ≤ i.value then ((Nat.toDigits 10 (i.value / i.unit)).length : Int) - 1
  else -((Nat.toDigits 10 (i.unit / i.value)).length : Int)

/-- The neighbours of the value on the grid of step `10 ^ power` that lie in the interval, the
better one chosen if both do. -/
def Interval.onGrid? (i : Interval) (tie : Tie) (power : Int) : Option Digits :=
  let up := i.value * Nat.pow 10 (-power).toNat
  let step := i.unit * Nat.pow 10 power.toNat
  let floor := up / step
  let rest := up % step
  let lower : Digits := ⟨floor, power⟩
  let upper : Digits := ⟨floor + 1, power⟩
  match decide (0 < floor) && i.holds lower, i.holds upper with
  | false, false => none
  | true, false => some lower
  | false, true => some upper
  | true, true =>
      if 2 * rest < step then some lower
      else if step < 2 * rest then some upper
      else match tie with
        | .up => some upper
        | .even => some (if floor % 2 = 0 then lower else upper)

/-- The first grid with a hit, from a number of digits on; `count` grids are tried. -/
def Interval.search (i : Interval) (tie : Tie) (power : Int) : Nat → Digits
  | 0 => ⟨i.value * Nat.pow 10 (-power).toNat / (i.unit * Nat.pow 10 power.toNat), power⟩
  | count + 1 =>
      match i.onGrid? tie power with
      | some found => found
      | none => i.search tie (power - 1) count

/-- The digits without the zeros at their end. At most `count` zeros are dropped. -/
def Digits.strip (d : Digits) : Nat → Digits
  | 0 => d
  | count + 1 =>
      if d.digits % 10 = 0 then (Digits.mk (d.digits / 10) (d.power + 1)).strip count else d

/-- The fewest digits that read back to the positive number `mantissa · 2 ^ scale`. Seventeen
always suffice. -/
def shortest (tie : Tie) (mantissa : Nat) (scale : Int) : Digits :=
  let i := Interval.of mantissa scale
  (i.search tie i.exponent 17).strip 17

end Stencil.Decimal
