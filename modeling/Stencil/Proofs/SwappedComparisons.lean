import Stencil.Proofs.ExactGrammar

/-!
Comparisons with their sides swapped. Values are loosely equal in both directions or in none, and the order of two
values, where they have one, is turned around when they are. Numbers are the one kind that takes an argument: the
order of floating-point numbers is turned around with their sides, an undefined number included, and nearness does
not tell the sides apart. So a condition keeps its value when comparisons in it are written the other way round,
wherever they stand in it; if operands fail, the condition fails either way, perhaps with the fault of the other one.
-/

namespace Stencil

open Float.Model

section Numbers

/-- The order of two numbers, turned around. -/
theorem Floating.compare_swap (f g : UnpackedFloat) : g.compare f = (f.compare g).map Ordering.swap := by
  cases f with
  | notANumber => cases g <;> rfl
  | infinity s =>
      cases s <;> cases g with
      | infinity s' => cases s' <;> rfl
      | _ => rfl
  | zero s =>
      cases g with
      | infinity s' => cases s' <;> rfl
      | finite s' => cases s' <;> rfl
      | _ => rfl
  | finite s m e positive =>
      cases g with
      | notANumber => cases s <;> rfl
      | infinity s' => cases s <;> cases s' <;> rfl
      | zero => cases s <;> rfl
      | finite s' m' e' positive' =>
          have hsizes : (compare e' e).then (compare m' m) = ((compare e e').then (compare m m')).swap := by
            rw [Ordering.swap_then, ← Std.OrientedCmp.eq_swap, ← Std.OrientedCmp.eq_swap]
          cases s with
          | positive =>
              cases s' with
              | positive => exact congrArg some hsizes
              | negative => rfl
          | negative =>
              cases s' with
              | positive => rfl
              | negative => exact congrArg (fun order => some order.swap) hsizes

theorem Floating.beq_comm (x y : Float) : (x == y) = (y == x) := by
  change (x.toModel.unpack.compare y.toModel.unpack == some .eq) =
    (y.toModel.unpack.compare x.toModel.unpack == some .eq)
  rw [compare_swap y.toModel.unpack]
  cases y.toModel.unpack.compare x.toModel.unpack with
  | none => rfl
  | some order => cases order <;> rfl

theorem Floating.nearlyEqual_comm (x y : Floating) : x.nearlyEqual y = y.nearlyEqual x := by
  unfold nearlyEqual
  rw [beq_comm, Bool.or_assoc, Bool.or_assoc, Bool.or_comm (decide (x.orderedBits - y.orderedBits ≤ 2))]

end Numbers

namespace Value

mutual

theorem equal_comm : (left right : Value) → left.equal right = right.equal left
  | .list items, .list items' => by
      unfold equal
      exact equalItems_comm items items'
  | .map entries, .map entries' => by
      unfold equal
      exact equalEntries_comm entries entries'
  | .null, right => by cases right <;> rfl
  | .bool a, right => by
      cases right with
      | bool b => exact Bool.beq_comm
      | _ => rfl
  | .int a, right => by
      cases right with
      | int b => exact Bool.beq_comm
      | float y => exact Floating.nearlyEqual_comm _ _
      | _ => rfl
  | .float x, right => by
      cases right with
      | int b => exact Floating.nearlyEqual_comm _ _
      | float y => exact Floating.nearlyEqual_comm _ _
      | _ => rfl
  | .string s, right => by
      cases right with
      | string t => exact Bool.beq_comm
      | _ => rfl
  | .object o, right => by
      cases right with
      | object o' => exact Bool.beq_comm
      | _ => rfl
  | .list _, .null | .list _, .bool _ | .list _, .int _ | .list _, .float _ | .list _, .string _
  | .list _, .map _ | .list _, .object _ => rfl
  | .map _, .null | .map _, .bool _ | .map _, .int _ | .map _, .float _ | .map _, .string _
  | .map _, .list _ | .map _, .object _ => rfl

theorem equalItems_comm : (left right : List Value) → equalItems left right = equalItems right left
  | [], [] | [], _ :: _ | _ :: _, [] => rfl
  | x :: xs, y :: ys => by simp only [equalItems, equal_comm x y, equalItems_comm xs ys]

theorem equalEntries_comm :
    (left right : List (String × Value)) → equalEntries left right = equalEntries right left
  | [], [] | [], _ :: _ | _ :: _, [] => rfl
  | (k, x) :: xs, (l, y) :: ys => by
      simp only [equalEntries, equal_comm x y, equalEntries_comm xs ys, Bool.beq_comm (a := k)]

end

theorem beq_comm (left right : Value) : (left == right) = (right == left) := equal_comm left right

end Value

namespace Formula

theorem numbers?_swap (left right : Value) : numbers? right left = (numbers? left right).map Prod.swap := by
  unfold numbers?
  rw [Bool.and_comm]
  split
  · cases left.number? <;> cases right.number? <;> rfl
  · rfl

/-- The order of numbers is the one that their format has. -/
theorem floatOrder?_eq (x y : Float) : floatOrder? x y = x.toModel.unpack.compare y.toModel.unpack := by
  have hswap := Floating.compare_swap x.toModel.unpack y.toModel.unpack
  have hless (x y : Float) : x < y ↔ x.toModel.unpack.compare y.toModel.unpack = some .lt := by
    change decide ((x.toModel.unpack.compare y.toModel.unpack == some .lt) = true) = true ↔ _
    rw [decide_eq_true_iff, beq_iff_eq]
  have hequal : (x == y) = (x.toModel.unpack.compare y.toModel.unpack == some .eq) := rfl
  unfold floatOrder?
  rw [hequal]
  simp only [hless, hswap]
  cases x.toModel.unpack.compare y.toModel.unpack with
  | none => rfl
  | some order => cases order <;> rfl

theorem order?_swap (left right : Value) : order? right left = (order? left right).map Ordering.swap := by
  unfold order?
  rw [Bool.or_comm, numbers?_swap left right]
  split
  · rfl
  · cases numbers? left right with
    | none => exact congrArg some Std.OrientedCmp.eq_swap
    | some pair =>
        obtain ⟨x, y⟩ := pair
        change floatOrder? y.number x.number = (floatOrder? x.number y.number).map Ordering.swap
        rw [floatOrder?_eq, floatOrder?_eq]
        exact Floating.compare_swap _ _

/-- Loose equality of values that are neither null nor truth values. -/
def generallyEqual (left right : Value) : Bool :=
  match numbers? left right with
  | some (x, y) => x.nearlyEqual y
  | none => left == right || left.text == right.text

theorem generallyEqual_comm (left right : Value) : generallyEqual left right = generallyEqual right left := by
  unfold generallyEqual
  rw [numbers?_swap left right]
  cases numbers? left right with
  | none => exact congrArg₂ or (Value.beq_comm left right) Bool.beq_comm
  | some pair => exact Floating.nearlyEqual_comm _ _

/-- Whether a value is neither null nor a truth value. -/
def isGeneral : Value → Bool
  | .null | .bool _ => false
  | _ => true

theorem looselyEqual_of_isGeneral {left right : Value} (hleft : isGeneral left = true)
    (hright : isGeneral right = true) : looselyEqual left right = generallyEqual left right := by
  cases left with
  | null | bool => cases hleft
  | _ =>
      cases right with
      | null | bool => cases hright
      | _ => rfl

theorem looselyEqual_comm (left right : Value) : looselyEqual left right = looselyEqual right left := by
  by_cases hgeneral : isGeneral left = true ∧ isGeneral right = true
  · obtain ⟨hleft, hright⟩ := hgeneral
    rw [looselyEqual_of_isGeneral hleft hright, looselyEqual_of_isGeneral hright hleft]
    exact generallyEqual_comm left right
  · cases left with
    | null => cases right <;> rfl
    | bool a =>
        cases right with
        | bool b => exact Bool.beq_comm
        | _ => rfl
    | _ =>
        cases right with
        | null | bool => rfl
        | _ => exact absurd ⟨rfl, rfl⟩ hgeneral

/-- The comparison that says the same with its sides swapped. -/
def Comparison.swapped : Comparison → Comparison
  | .equal => .equal
  | .notEqual => .notEqual
  | .less => .greater
  | .greater => .less
  | .lessEqual => .greaterEqual
  | .greaterEqual => .lessEqual

theorem Comparison.holds_swapped (comparison : Comparison) (left right : Value) :
    comparison.swapped.holds right left = comparison.holds left right := by
  cases comparison with
  | equal => exact looselyEqual_comm right left
  | notEqual =>
      change (!looselyEqual right left) = !looselyEqual left right
      rw [looselyEqual_comm]
  | _ =>
      unfold holds swapped
      dsimp only
      rw [order?_swap left right]
      cases order? left right with
      | none => rfl
      | some order => cases order <;> rfl

/-- Formulas that are the same but for comparisons that are written the other way round. -/
inductive Turned : Formula → Formula → Prop
  | literal (value : Value) : Turned (.literal value) (.literal value)
  | reference (text : String) : Turned (.reference text) (.reference text)
  | negate {operand operand' : Formula} (h : Turned operand operand') : Turned (.negate operand) (.negate operand')
  | not {operand operand' : Formula} (h : Turned operand operand') : Turned (.not operand) (.not operand')
  | binary (operator : Operator) {left left' right right' : Formula} (hleft : Turned left left')
      (hright : Turned right right') : Turned (.binary operator left right) (.binary operator left' right')
  | swapped (comparison : Comparison) {left left' right right' : Formula} (hleft : Turned left left')
      (hright : Turned right right') :
      Turned (.binary (.compare comparison) left right) (.binary (.compare comparison.swapped) right' left')

section Conditions

variable {ε α β : Type} {lookup : String → Except Fault (Option Value)}

theorem toOption_bind (program : Except ε α) (next : α → Except ε β) :
    (program >>= next).toOption = program.toOption.bind fun result => (next result).toOption := by
  cases program <;> rfl

theorem toOption_binary (operator : Operator) (left right : Formula) :
    ((binary operator left right).value lookup).toOption =
      (left.value lookup).toOption.bind fun x => (right.value lookup).toOption.map (operator.apply x) := by
  rw [value, toOption_bind]
  refine congrArg _ (funext fun x => ?_)
  rw [toOption_bind]
  exact Option.map_eq_bind.symm

theorem Turned.value_eq {first second : Formula} (h : Turned first second) :
    (first.value lookup).toOption = (second.value lookup).toOption := by
  induction h with
  | literal value => rfl
  | reference text => rfl
  | negate _ ih => rw [value, value, toOption_bind, toOption_bind, ih]
  | not _ ih => rw [value, value, toOption_bind, toOption_bind, ih]
  | binary operator _ _ ihleft ihright => rw [toOption_binary, toOption_binary, ihleft, ihright]
  | @swapped comparison left left' right right' _ _ ihleft ihright =>
      have happly (x y : Value) : Operator.apply (.compare comparison.swapped) y x =
          Operator.apply (.compare comparison) x y := congrArg Value.bool (comparison.holds_swapped x y)
      rw [toOption_binary, toOption_binary, ihleft, ihright]
      -- both sides have a value or the comparison has none, whichever is asked for first
      cases (left'.value lookup).toOption with
      | none => exact (Option.bind_fun_none _).symm
      | some x =>
          cases (right'.value lookup).toOption with
          | none => rfl
          | some y => exact congrArg some (happly x y).symm

/-- The formula that a text is read as. -/
def formulaOf? (text : List Char) : Option Formula := do
  (read (← tokens? text)).toOption

theorem evaluate_of_formulaOf? {text : List Char} {found : Formula} (h : formulaOf? text = some found) :
    (evaluate lookup text).toOption = (found.value lookup).toOption.map Resolver.present := by
  obtain ⟨tokens, htokens, hread⟩ := Option.bind_eq_some_iff.1 h
  unfold evaluate
  rw [htokens]
  dsimp only
  cases hfound : read tokens with
  | error references =>
      rw [hfound] at hread
      cases hread
  | ok formula =>
      rw [hfound] at hread
      cases hread
      dsimp only
      rw [toOption_bind]
      exact Option.map_eq_bind.symm

theorem Expression.formulaOf?_text (expression : Expression) :
    formulaOf? expression.text = some expression.formula := by
  obtain ⟨tokens, htokens, hread⟩ := Option.map_eq_some_iff.1 expression.read
  unfold formulaOf?
  rw [htokens]
  exact congrArg Except.toOption hread

/-- Loose equality and the order of values go by both sides alike, whatever kinds of values are compared, and so do
all comparisons. A condition keeps its value, and whether it fails, when comparisons in it are turned round. -/
theorem comparisons_swap :
    (∀ left right : Value, looselyEqual left right = looselyEqual right left) ∧
    (∀ left right : Value, order? right left = (order? left right).map Ordering.swap) ∧
    (∀ (comparison : Comparison) (left right : Value),
      comparison.holds left right = comparison.swapped.holds right left) ∧
    ∀ (lookup : String → Except Fault (Option Value)) (condition turned : List Char) (first second : Formula),
      formulaOf? condition = some first → formulaOf? turned = some second → Turned first second →
        (evaluate lookup condition).toOption = (evaluate lookup turned).toOption := by
  refine ⟨looselyEqual_comm, order?_swap, fun comparison left right => ?_, ?_⟩
  · exact (comparison.holds_swapped left right).symm
  · intro lookup condition turned first second hcondition hturned h
    rw [evaluate_of_formulaOf? hcondition, evaluate_of_formulaOf? hturned, h.value_eq]

end Conditions

/-- An operation with its operator spelled as a sign. -/
def Expression.signed (operator : Operator) (first second : Expression) : Expression :=
  .binary operator ⟨operator.sign, .inl (sign_mem_signs operator)⟩ first second

/-- Both comparisons in a condition are turned round; what its names hold need not be numbers. -/
theorem comparisons_swap_names :
    let x : Expression := .reference ⟨['x'], [], rfl, rfl, rfl⟩
    let y : Expression := .reference ⟨['y'], [], rfl, rfl, rfl⟩
    let nine : Expression := .integer ⟨['9'], by decide, List.all_eq_true.1 rfl⟩
    let condition : Expression := .signed .and (.signed (.compare .less) x y) (.signed (.compare .notEqual) x nine)
    let turned : Expression := .signed .and (.signed (.compare .greater) y x) (.signed (.compare .notEqual) nine x)
    let lookup (name : String) : Except Fault (Option Value) := .ok (some (.string name))
    formulaOf? "x < y && x != 9".toList = some condition.formula ∧
      formulaOf? "y > x && 9 != x".toList = some turned.formula ∧ Turned condition.formula turned.formula ∧
      (evaluate lookup "x < y && x != 9".toList).toOption = (evaluate lookup "y > x && 9 != x".toList).toOption ∧
      evaluate lookup "x < y && x != 9".toList = .ok (some (.bool true)) := by
  intro x y nine condition turned lookup
  have hcondition : formulaOf? "x < y && x != 9".toList = some condition.formula := condition.formulaOf?_text
  have hturned : formulaOf? "y > x && 9 != x".toList = some turned.formula := turned.formulaOf?_text
  have h : Turned condition.formula turned.formula :=
    .binary .and (.swapped .less (.reference _) (.reference _)) (.swapped .notEqual (.reference _) (.literal _))
  refine ⟨hcondition, hturned, h, comparisons_swap.2.2.2 lookup _ _ _ _ hcondition hturned h, ?_⟩
  exact condition.evaluate_text

end Formula

end Stencil
