import Stencil.Value.Equality

/-!
What the operators of expressions do to values. Comparison is loose: strings that write numbers
compare as numbers, and other values of different kinds by their texts. Integer arithmetic is exact
while its result fits, and goes on in floating point where it does not.
-/

namespace Stencil.Formula

/-- The comparisons. -/
inductive Comparison where
  | equal
  | notEqual
  | less
  | greater
  | lessEqual
  | greaterEqual
deriving Repr, DecidableEq

/-- The operators on two values. -/
inductive Operator where
  | or
  | and
  | compare (comparison : Comparison)
  | add
  | subtract
  | multiply
  | divide
  | remainder
deriving Repr, DecidableEq

/-- Whether a value may count as a number: a number or a string. -/
def maybeNumber : Value → Bool
  | .int _ | .float _ | .string _ => true
  | _ => false

/-- Both values as numbers, if both are. -/
def numbers? (left right : Value) : Option (Floating × Floating) :=
  if maybeNumber left && maybeNumber right then do
    let x ← left.number?
    let y ← right.number?
    some (x, y)
  else none

/-- Loose equality. Null equals null alone; a truth value equals a text that says it. -/
def looselyEqual (left right : Value) : Bool :=
  match left, right with
  | .null, other => other.isNull
  | other, .null => other.isNull
  | .bool a, .bool b => a == b
  | .bool flag, other => Text.sameLetters other.text (Value.boolText flag)
  | other, .bool flag => Text.sameLetters other.text (Value.boolText flag)
  | left, right =>
      match numbers? left right with
      | some (x, y) => x.nearlyEqual y
      | none => left == right || left.text == right.text

/-- The order of two numbers, if neither is undefined. -/
def floatOrder? (x y : Float) : Option Ordering :=
  if x < y then some .lt else if y < x then some .gt else if x == y then some .eq else none

/-- The order of two values: as numbers, or else by their texts. Null has no order. -/
def order? (left right : Value) : Option Ordering :=
  if left.isNull || right.isNull then none
  else
    match numbers? left right with
    | some (x, y) => floatOrder? x.number y.number
    | none => some (compare left.text right.text)

/-- Whether a comparison holds. -/
def Comparison.holds (comparison : Comparison) (left right : Value) : Bool :=
  match comparison with
  | .equal => looselyEqual left right
  | .notEqual => !looselyEqual left right
  | .less => order? left right == some .lt
  | .greater => order? left right == some .gt
  | .lessEqual => (order? left right).any fun o => o != .gt
  | .greaterEqual => (order? left right).any fun o => o != .lt

/-- A floating-point result; an undefined one is null. -/
def definite (x : Float) : Value := if x.isNaN then .null else .float x

/-- Arithmetic on integers where it is defined and fits, and on numbers elsewhere. -/
def arithmetic (integer : Int → Int → Option Int) (float : Float → Float → Float)
    (left right : Value) : Value :=
  let exact := match left, right with
    | .int a, .int b => do Decimal.word? (← integer a.toInt b.toInt)
    | _, _ => none
  match exact with
  | some n => .int n
  | none =>
      match numbers? left right with
      | some (x, y) => definite (float x.number y.number)
      | none => .null

/-- The remainder of floating-point division toward zero, with the sign of the dividend. It is
exact: both numbers are multiples of the finer of their two units. -/
def floatRemainder (x y : Float) : Float :=
  match Decimal.Binary.ofFloat x, Decimal.Binary.ofFloat y with
  | .finite negative m p, .finite _ n q =>
      if n = 0 then 0.0 / 0.0
      else
        let unit := min p q
        let rest := m * Nat.pow 2 (p - unit).toNat % (n * Nat.pow 2 (q - unit).toNat)
        let magnitude := Floating.scaled rest unit
        if negative then -magnitude else magnitude
  | .finite _ _ _, .infinite _ => x
  | _, _ => 0.0 / 0.0

/-- Addition; texts when one side is a string. -/
def sum (left right : Value) : Value :=
  match left, right with
  | .string _, _ | _, .string _ => .string (left.display ++ right.display)
  | _, _ => arithmetic (fun a b => some (a + b)) (· + ·) left right

/-- Division: null by zero, an integer where integers divide evenly. -/
def quotient (left right : Value) : Value :=
  match numbers? left right with
  | none => .null
  | some (x, y) =>
      if y.number == 0 then .null
      else
        let exact := match left, right with
          | .int a, .int b =>
              if b.toInt ∣ a.toInt then Decimal.word? (a.toInt.tdiv b.toInt) else none
          | _, _ => none
        match exact with
        | some n => .int n
        | none => .float (x.div y)

/-- The remainder of integer division toward zero, defined where the quotient is a word. -/
def intRemainder (a b : Int) : Option Int :=
  if b = 0 then none else (Decimal.word? (a.tdiv b)).map fun _ => a.tmod b

/-- What an operator makes of two values. -/
def Operator.apply (operator : Operator) (left right : Value) : Value :=
  match operator with
  | .or => .bool (left.isTruthy || right.isTruthy)
  | .and => .bool (left.isTruthy && right.isTruthy)
  | .compare comparison => .bool (comparison.holds left right)
  | .add => sum left right
  | .subtract => arithmetic (fun a b => some (a - b)) (· - ·) left right
  | .multiply => arithmetic (fun a b => some (a * b)) (· * ·) left right
  | .divide => quotient left right
  | .remainder => arithmetic intRemainder floatRemainder left right

/-- The negated number; null where there is none. -/
def negateValue : Value → Value
  | .int n =>
      match Decimal.word? (-n.toInt) with
      | some m => .int m
      | none => .null
  | other =>
      match other.number? with
      | some x => .float x.neg
      | none => .null

end Stencil.Formula
