import Stencil.Proofs.Decimal.Written
import Stencil.Proofs.Floating.Operations
import Stencil.Proofs.IntegerComparisons

/-!
Arithmetic on integers. A result that is an integer of 64 bits is this integer, a division by zero has no result,
and every other result goes on in floating point, where it is never undefined. There are two exceptions, both at
the least integer: negated it is nothing, and its remainder by minus one goes on in floating point although it is
zero.
-/

namespace Stencil.Formula

open Floating

/-- The operators of arithmetic. -/
inductive Calculation where
  | add
  | subtract
  | multiply
  | divide
  | remainder
deriving DecidableEq

namespace Calculation

def operator : Calculation → Operator
  | add => .add
  | subtract => .subtract
  | multiply => .multiply
  | divide => .divide
  | remainder => .remainder

/-- The exact result, if there is one. -/
def result? : Calculation → Int → Int → Option ℚ
  | add, a, b => some (a + b : Int)
  | subtract, a, b => some (a - b : Int)
  | multiply, a, b => some (a * b : Int)
  | divide, a, b => if b = 0 then none else some (a / b)
  | remainder, a, b => if b = 0 then none else some (a.tmod b : Int)

end Calculation

/-- An answer that is exact or promoted: nothing where there is no result, an integer where the result is one of
64 bits, and a floating-point number elsewhere. -/
inductive IsExact : Option ℚ → Option Value → Prop
  | nothing : IsExact none none
  | whole (n : Int64) : IsExact (some n.toInt) (some (.int n))
  | promoted {q : ℚ} {x : Floating} (outside : ∀ n : Int64, (n.toInt : ℚ) ≠ q)
      (defined : x.isUndefined = false) : IsExact (some q) (some (.float x))

theorem word?_eq_some_iff {k : Int} {n : Int64} : Decimal.word? k = some n ↔ n.toInt = k := by
  have hleast : Int64.minValue.toInt = -2 ^ 63 := rfl
  have hmost : Int64.maxValue.toInt = 2 ^ 63 - 1 := rfl
  unfold Decimal.word?
  constructor
  · intro h
    split at h
    next hrange =>
      injection h with h
      rw [← h, Int64.toInt_ofInt_of_le hrange.1 (by omega)]
    next => cases h
  · rintro rfl
    rw [if_pos ⟨n.minValue_le_toInt, n.toInt_le⟩, Int64.ofInt_toInt]

theorem word?_eq_none {k : Int} (h : Decimal.word? k = none) (n : Int64) : n.toInt ≠ k := by
  intro heq
  rw [word?_eq_some_iff.2 heq] at h
  cases h

theorem word?_of_range {k : Int} (h : -2 ^ 63 ≤ k ∧ k < 2 ^ 63) :
    ∃ n, Decimal.word? k = some n := by
  have hleast' : Int64.minValue.toInt = -2 ^ 63 := rfl
  have hmost' : Int64.maxValue.toInt = 2 ^ 63 - 1 := rfl
  unfold Decimal.word?
  rw [if_pos (by omega)]
  exact ⟨_, rfl⟩

/-- An integer result is exact as a word if it is one, and promoted otherwise. -/
theorem isExact_word {k : Int} {x : Floating} (h : x.isUndefined = false) :
    IsExact (some k) (Resolver.present
      (match Decimal.word? k with | some n => .int n | none => .float x)) := by
  cases hword : Decimal.word? k with
  | some n =>
      rw [← word?_eq_some_iff.1 hword]
      exact .whole n
  | none =>
      apply IsExact.promoted _ h
      intro n heq
      exact word?_eq_none hword n (by exact_mod_cast heq)

section Values

variable (a b : Int64)

theorem toInt_range : -2 ^ 63 ≤ a.toInt ∧ a.toInt < 2 ^ 63 := ⟨a.le_toInt, a.toInt_lt⟩

theorem floatRemainder_min :
    floatRemainder (ofInt64 Int64.minValue).number (ofInt64 (-1)).number = -0.0 := by
  apply Decimal.eq_of_toBits
  decide +kernel

/-- The operators that compute with integers first. -/
theorem isExact_arithmetic (integer : Int → Int → Option Int) (float : Float → Float → Float) {k : Int}
    (hinteger : integer a.toInt b.toInt = some k)
    (hfloat : (float (ofInt64 a).number (ofInt64 b).number).isNaN = false) :
    IsExact (some k) (Resolver.present (arithmetic integer float (.int a) (.int b))) := by
  have hdefinite : definite (float (ofInt64 a).number (ofInt64 b).number) =
      .float (float (ofInt64 a).number (ofInt64 b).number) := by
    rw [definite, hfloat]
    rfl
  have hword := isExact_word (k := k) (x := ⟨float (ofInt64 a).number (ofInt64 b).number, false⟩) hfloat
  unfold arithmetic
  simp only [hinteger, numbers?_int, hdefinite]
  exact hword

theorem isNaN_floatRemainder_zero (x : Float) : (floatRemainder x (ofInt64 0).number).isNaN = true := by
  have hzero : Decimal.Binary.ofFloat (ofInt64 0).number = .finite false 0 (-1074) := by decide +kernel
  have hundefined : (0.0 / 0.0 : Float).isNaN = true := rfl
  unfold floatRemainder
  rw [hzero]
  cases Decimal.Binary.ofFloat x with
  | finite negative m p =>
      dsimp only
      rw [if_pos rfl]
      exact hundefined
  | _ => exact hundefined

/-- A quotient leaves the range of words only where the least one is divided by minus one. -/
theorem tdiv_range {x y : Int} (hx : -2 ^ 63 ≤ x ∧ x < 2 ^ 63) (h : ¬ (x = -2 ^ 63 ∧ y = -1)) :
    -2 ^ 63 ≤ x.tdiv y ∧ x.tdiv y < 2 ^ 63 := by
  have habs : (x.tdiv y).natAbs = x.natAbs / y.natAbs := Int.natAbs_tdiv x y
  by_cases hunit : y.natAbs ≤ 1
  · have hcases : y = 0 ∨ y = 1 ∨ y = -1 := by omega
    rcases hcases with rfl | rfl | rfl
    · rw [Int.tdiv_zero]
      omega
    · rw [Int.tdiv_one]
      exact hx
    · rw [Int.tdiv_neg, Int.tdiv_one]
      omega
  · have hhalf : x.natAbs / y.natAbs ≤ x.natAbs / 2 := Nat.div_le_div_left (by omega) (by norm_num)
    omega

theorem tmod_range {x y : Int} (hy : -2 ^ 63 ≤ y ∧ y < 2 ^ 63) (hzero : y ≠ 0) :
    -2 ^ 63 ≤ x.tmod y ∧ x.tmod y < 2 ^ 63 := by
  have habs : (x.tmod y).natAbs = x.natAbs % y.natAbs := Int.natAbs_tmod x y
  have hlt : x.natAbs % y.natAbs < y.natAbs := Nat.mod_lt _ (Int.natAbs_pos.2 hzero)
  omega

theorem isExact_remainder (h : ¬ (a = Int64.minValue ∧ b = -1)) :
    IsExact (Calculation.remainder.result? a.toInt b.toInt)
      (Resolver.present (arithmetic intRemainder floatRemainder (.int a) (.int b))) := by
  unfold Calculation.result?
  by_cases hb : b = 0
  · subst hb
    have hnothing : intRemainder a.toInt (0 : Int64).toInt = none := rfl
    unfold arithmetic
    simp only [hnothing, numbers?_int, definite, isNaN_floatRemainder_zero]
    exact .nothing
  · have hb' : b.toInt ≠ 0 := mt (toInt_eq_zero_iff b).1 hb
    have ha : ¬ (a.toInt = -2 ^ 63 ∧ b.toInt = -1) := by
      rintro ⟨hleast, hminus⟩
      exact h ⟨Int64.toInt_inj.1 hleast, Int64.toInt_inj.1 hminus⟩
    obtain ⟨n, hn⟩ := word?_of_range (tdiv_range (toInt_range a) ha)
    obtain ⟨rest, hrest⟩ := word?_of_range (tmod_range (x := a.toInt) (toInt_range b) hb')
    have hinteger : intRemainder a.toInt b.toInt = some (a.toInt.tmod b.toInt) := by
      rw [intRemainder, if_neg hb', hn]
      rfl
    unfold arithmetic
    simp only [hinteger, Option.bind_eq_bind, Option.bind_some, hrest]
    rw [if_neg hb', ← word?_eq_some_iff.1 hrest]
    exact .whole rest

theorem isExact_quotient :
    IsExact (Calculation.divide.result? a.toInt b.toInt)
      (Resolver.present (quotient (.int a) (.int b))) := by
  have hzero := beq_zero_iff b
  unfold quotient Calculation.result?
  simp only [numbers?_int]
  by_cases hb : b = 0
  · subst hb
    exact .nothing
  · have hb' : b.toInt ≠ 0 := mt (toInt_eq_zero_iff b).1 hb
    rw [if_neg (mt hzero.1 hb), if_neg hb']
    by_cases hdvd : b.toInt ∣ a.toInt
    · have hquotient : (a.toInt : ℚ) / b.toInt = (a.toInt.tdiv b.toInt : Int) := by
        obtain ⟨k, hk⟩ := hdvd
        rw [hk, Int.mul_tdiv_cancel_left k hb', Int.cast_mul]
        exact mul_div_cancel_left₀ _ (Int.cast_ne_zero.2 hb')
      rw [if_pos hdvd, hquotient]
      exact isExact_word (isUndefined_div a b hb)
    · rw [if_neg hdvd]
      apply IsExact.promoted _ (isUndefined_div a b hb)
      intro n heq
      rw [eq_div_iff (Int.cast_ne_zero.2 hb')] at heq
      exact hdvd ⟨n.toInt, by rw [mul_comm]; exact_mod_cast heq.symm⟩

theorem isExact_apply (calculation : Calculation)
    (h : ¬ (calculation = .remainder ∧ a = Int64.minValue ∧ b = -1)) :
    IsExact (calculation.result? a.toInt b.toInt)
      (Resolver.present (calculation.operator.apply (.int a) (.int b))) := by
  cases calculation with
  | add => exact isExact_arithmetic a b (fun a b => some (a + b)) (· + ·) rfl (isNaN_add a b)
  | subtract => exact isExact_arithmetic a b (fun a b => some (a - b)) (· - ·) rfl (isNaN_sub a b)
  | multiply => exact isExact_arithmetic a b (fun a b => some (a * b)) (· * ·) rfl (isNaN_mul a b)
  | divide => exact isExact_quotient a b
  | remainder => exact isExact_remainder a b fun hexception => h ⟨rfl, hexception⟩

/-- The remainder of the least integer by minus one is the floating-point number minus zero. -/
theorem remainder_min :
    Operator.remainder.apply (.int Int64.minValue) (.int (-1)) = .float (-0.0 : Float) := by
  have hinteger : intRemainder Int64.minValue.toInt (-1 : Int64).toInt = none := by decide +kernel
  have hdefined : (-0.0 : Float).isNaN = false := rfl
  have hremainder := floatRemainder_min
  have happly : Operator.remainder.apply (.int Int64.minValue) (.int (-1)) =
    arithmetic intRemainder floatRemainder (.int Int64.minValue) (.int (-1)) := rfl
  rw [happly, arithmetic]
  simp only [hinteger, numbers?_int, hremainder, definite, hdefined]
  rfl

theorem not_isExact_none {q : ℚ} : ¬ IsExact (some q) none := by
  intro h
  cases h

theorem not_isExact_float {n : Int64} {x : Floating} : ¬ IsExact (some n.toInt) (some (.float x)) := by
  intro h
  generalize hq : (n.toInt : ℚ) = q at h
  cases h with
  | promoted outside => exact outside n hq

/-- An integer other than the least one is negated as it is taken from zero. -/
theorem negation_of_ne (h : a ≠ Int64.minValue) :
    ∃ n : Int64, n.toInt = -a.toInt ∧ negateValue (.int a) = .int n ∧
      Operator.subtract.apply (.int 0) (.int a) = .int n := by
  have hne : a.toInt ≠ -2 ^ 63 := fun hleast => h (Int64.toInt_inj.1 hleast)
  have hrange := toInt_range a
  obtain ⟨n, hn⟩ := word?_of_range (show -2 ^ 63 ≤ -a.toInt ∧ -a.toInt < 2 ^ 63 by omega)
  refine ⟨n, word?_eq_some_iff.1 hn, ?_, ?_⟩
  · simp only [negateValue, hn]
  · have hzero : (0 : Int64).toInt - a.toInt = -a.toInt := Int.zero_sub _
    simp only [Operator.apply, arithmetic, Option.bind_eq_bind, Option.bind_some, hzero, hn]

theorem negation_min :
    negateValue (.int Int64.minValue) = .null ∧
      ∃ x, Operator.subtract.apply (.int 0) (.int Int64.minValue) = .float x := by
  have hword : Decimal.word? (-Int64.minValue.toInt) = none := by decide +kernel
  constructor
  · simp only [negateValue, hword]
  · exact ⟨_, rfl⟩

end Values

/-- The literal zero. -/
def zeroLiteral : Expression := .integer ⟨['0'], by decide, List.all_eq_true.1 rfl⟩

section Texts

variable {lookup : String → Except Fault (Option Value)} {first second : Expression} {a b : Int64}

/-- The operations on two operands that are integers are exact or promoted except for the remainder of the
least integer by minus one. The negation is exact, and the same as the difference from zero, except for the
least integer. -/
theorem calculations_exact_iff (hfirst : first.formula.value lookup = .ok (.int a))
    (hsecond : second.formula.value lookup = .ok (.int b)) :
    (∀ (calculation : Calculation) (spelling : Spelling calculation.operator.token),
      ∃ answer, evaluate lookup (Expression.binary calculation.operator spelling first second).text =
          .ok answer ∧
        (IsExact (calculation.result? a.toInt b.toInt) answer ↔
          ¬ (calculation = .remainder ∧ a = Int64.minValue ∧ b = -1))) ∧
      ∃ answer, evaluate lookup first.negate.text = .ok answer ∧
        (IsExact (some (-a.toInt : Int)) answer ↔ a ≠ Int64.minValue) ∧
        ∀ spelling, evaluate lookup (Expression.binary .subtract spelling zeroLiteral first).text =
          .ok answer ↔ a ≠ Int64.minValue := by
  constructor
  · intro calculation spelling
    refine ⟨_, Expression.evaluate_binary calculation.operator spelling hfirst hsecond, ?_⟩
    constructor
    · rintro hexact ⟨rfl, rfl, rfl⟩
      have hresult : Calculation.remainder.result? Int64.minValue.toInt (-1 : Int64).toInt =
          some (0 : Int64).toInt := by decide +kernel
      rw [Calculation.operator, remainder_min, hresult] at hexact
      exact not_isExact_float hexact
    · exact isExact_apply a b calculation
  · have hzero : zeroLiteral.formula.value lookup = .ok (.int 0) := rfl
    refine ⟨_, Expression.evaluate_negate hfirst, ?_⟩
    by_cases hmin : a = Int64.minValue
    · subst hmin
      obtain ⟨hnull, x, hfloat⟩ := negation_min
      rw [hnull]
      constructor
      · exact ⟨fun hexact => absurd hexact not_isExact_none, fun hne => absurd rfl hne⟩
      · intro spelling
        rw [Expression.evaluate_binary .subtract spelling hzero hfirst, hfloat]
        constructor
        · intro hsame
          cases hsame
        · intro hne
          exact absurd rfl hne
    · obtain ⟨n, hn, hnegated, hdifference⟩ := negation_of_ne a hmin
      rw [hnegated, ← hn]
      constructor
      · exact ⟨fun _ => hmin, fun _ => .whole n⟩
      · intro spelling
        rw [Expression.evaluate_binary .subtract spelling hzero hfirst, hdifference]
        exact ⟨fun _ => hmin, fun _ => rfl⟩

/-- Seven by two is a number that is no integer. -/
theorem calculations_exact_seven :
    ∃ spelling answer,
      evaluate (twoIntegers 7 2) (Expression.binary .divide spelling firstVariable secondVariable).text =
        .ok answer ∧ IsExact (some (7 / 2)) answer := by
  have hexact := (calculations_exact_iff (value_firstVariable 7 2) (value_secondVariable 7 2)).1 .divide
  have hresult : Calculation.divide.result? (7 : Int64).toInt (2 : Int64).toInt = some (7 / 2) := by
    decide +kernel
  let spelling : Spelling Operator.divide.token := ⟨['/'], .inl (by simp [signs, Operator.token])⟩
  obtain ⟨answer, hanswer, hiff⟩ := hexact spelling
  rw [hresult] at hiff
  refine ⟨spelling, answer, hanswer, hiff.2 ?_⟩
  rintro ⟨hremainder, -⟩
  cases hremainder

/-- The least integer has no negation, although it can be taken from zero. -/
theorem not_calculations_exact :
    ¬ ∀ (lookup : String → Except Fault (Option Value)) (first second : Expression) (a b : Int64),
      first.formula.value lookup = .ok (.int a) → second.formula.value lookup = .ok (.int b) →
        (∀ (calculation : Calculation) (spelling : Spelling calculation.operator.token),
          ∃ answer, evaluate lookup (Expression.binary calculation.operator spelling first second).text =
            .ok answer ∧ IsExact (calculation.result? a.toInt b.toInt) answer) ∧
        ∃ answer, evaluate lookup first.negate.text = .ok answer ∧
          IsExact (some (-a.toInt : Int)) answer := by
  intro hclaim
  have hfirst := value_firstVariable Int64.minValue (-1)
  have hsecond := value_secondVariable Int64.minValue (-1)
  obtain ⟨-, answer, hanswer, hexact⟩ := hclaim _ _ _ _ _ hfirst hsecond
  rw [Expression.evaluate_negate hfirst, negation_min.1] at hanswer
  injection hanswer with hanswer
  rw [← hanswer] at hexact
  exact not_isExact_none hexact

end Texts

end Stencil.Formula
