import Stencil.Value.Basic

/-!
Equality of values. Numbers are equal when they are the same or next to each other up to two steps
of the floating-point format; lists and maps compare by their contents, objects by their identity.
-/

namespace Stencil

namespace Value

mutual

/-- Equality of values. -/
def equal : Value → Value → Bool
  | .null, .null => true
  | .bool a, .bool b => a == b
  | .int a, .int b => a == b
  | .float a, .float b => a.nearlyEqual b
  | .int a, .float b => (Floating.ofInt64 a).nearlyEqual b
  | .float a, .int b => a.nearlyEqual (.ofInt64 b)
  | .string a, .string b => a == b
  | .list a, .list b => equalItems a b
  | .map a, .map b => equalEntries a b
  | .object a, .object b => a.identity == b.identity
  | _, _ => false

/-- Equality of lists of values. -/
def equalItems : List Value → List Value → Bool
  | [], [] => true
  | x :: xs, y :: ys => x.equal y && equalItems xs ys
  | _, _ => false

/-- Equality of the entries of maps. -/
def equalEntries : List (String × Value) → List (String × Value) → Bool
  | [], [] => true
  | (k, x) :: xs, (l, y) :: ys => k == l && x.equal y && equalEntries xs ys
  | _, _ => false

end

instance : BEq Value := ⟨equal⟩

end Value

end Stencil
