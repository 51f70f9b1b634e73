import Stencil.Proofs.ExactGrammar
import Stencil.Proofs.Floating.Integers

/-!
Comparisons of integers. Both operands are compared as the floating-point numbers nearest to them, and numbers
up to two places apart count as equal. So the comparisons are those of the integers where the two are the same
or their numbers are further apart, as they always are up to `2 ^ 51` in size. Elsewhere different integers are
equal, but an order is never told the wrong way round.
-/

namespace Stencil.Formula

open Floating

/-- The relation between integers that a comparison stands for. -/
def Comparison.ofIntegers : Comparison → Int → Int → Bool
  | .equal, a, b => a == b
  | .notEqual, a, b => a != b
  | .less, a, b => a < b
  | .greater, a, b => b < a
  | .lessEqual, a, b => a ≤ b
  | .greaterEqual, a, b => b ≤ a

section Values

variable (a b : Int64)

/-- The places of the floating-point numbers nearest to two integers, one taken from the other. -/
def placesApart : Int := signedPlace b.toInt - signedPlace a.toInt

theorem numbers?_int : numbers? (.int a) (.int b) = some (ofInt64 a, ofInt64 b) := rfl

theorem looselyEqual_int : looselyEqual (.int a) (.int b) = decide (|placesApart a b| ≤ 2) := by
  have hnear := nearlyEqual_ofInt64 a b
  simp only [looselyEqual, numbers?_int]
  rw [Bool.eq_iff_iff, decide_eq_true_iff, hnear, abs_sub_comm]
  rfl

theorem floatOrder?_ofInt64 :
    floatOrder? (ofInt64 a).number (ofInt64 b).number = some (compare 0 (placesApart a b)) := by
  have hless := lt_ofInt64 a b
  have hgreater := lt_ofInt64 b a
  have hequal := beq_ofInt64 a b
  unfold floatOrder? placesApart
  rcases lt_trichotomy (signedPlace a.toInt) (signedPlace b.toInt) with hlt | heq | hgt
  · rw [if_pos (hless.2 hlt), Eq.comm]
    exact congrArg some (compare_lt_iff_lt.2 (by omega))
  · rw [if_neg (mt hless.1 heq.not_lt), if_neg (mt hgreater.1 heq.not_gt), if_pos (hequal.2 heq), Eq.comm]
    exact congrArg some (compare_eq_iff_eq.2 (by omega))
  · rw [if_neg (mt hless.1 hgt.not_gt), if_pos (hgreater.2 hgt), Eq.comm]
    exact congrArg some (compare_gt_iff_gt.2 (by omega))

theorem order?_int : order? (.int a) (.int b) = some (compare 0 (placesApart a b)) := by
  simp only [order?, numbers?_int, floatOrder?_ofInt64]
  rfl

/-- Whether a comparison holds, told from how far the places are apart and on which side. -/
theorem holds_int (comparison : Comparison) :
    comparison.holds (.int a) (.int b) =
      match comparison with
      | .equal => decide (|placesApart a b| ≤ 2)
      | .notEqual => decide (2 < |placesApart a b|)
      | .less => decide (0 < placesApart a b)
      | .greater => decide (placesApart a b < 0)
      | .lessEqual => decide (0 ≤ placesApart a b)
      | .greaterEqual => decide (placesApart a b ≤ 0) := by
  rw [Bool.eq_iff_iff]
  cases comparison with
  | equal => rw [Comparison.holds, looselyEqual_int]
  | notEqual => simp [Comparison.holds, looselyEqual_int]
  | less => simp [Comparison.holds, order?_int, compare_lt_iff_lt]
  | greater => simp [Comparison.holds, order?_int, compare_gt_iff_gt]
  | lessEqual => simp [Comparison.holds, order?_int, compare_gt_iff_gt]
  | greaterEqual => simp [Comparison.holds, order?_int, compare_lt_iff_lt]

theorem equal_int : (Value.int a == Value.int b) = (a.toInt == b.toInt) := by
  have hequal : (Value.int a == Value.int b) = (a == b) := rfl
  rw [hequal, Bool.eq_iff_iff, beq_iff_eq, beq_iff_eq, Int64.toInt_inj]

theorem placesApart_nonneg (h : a.toInt ≤ b.toInt) : 0 ≤ placesApart a b :=
  Int.sub_nonneg.2 (signedPlace_mono h)

theorem placesApart_self : placesApart a a = 0 := Int.sub_self _

theorem placesApart_comm : placesApart b a = -placesApart a b := (Int.neg_sub _ _).symm

/-- Integers up to `2 ^ 51` in size have four places each to themselves. -/
theorem placesApart_small (h : a ≠ b) (ha : a.toInt.natAbs ≤ 2 ^ 51) (hb : b.toInt.natAbs ≤ 2 ^ 51) :
    2 < |placesApart a b| := by
  have hne : a.toInt ≠ b.toInt := mt Int64.toInt_inj.1 h
  rw [lt_abs]
  rcases hne.lt_or_gt with hlt | hgt
  · have hgap := signedPlace_gap hlt.le ha hb
    left
    unfold placesApart
    omega
  · have hgap := signedPlace_gap hgt.le hb ha
    right
    unfold placesApart
    omega

example : |placesApart 2251799813685248 2251799813685249| = 2 := by decide +kernel

/-- Places far enough apart are in the order of their integers. -/
theorem placesApart_cases (h : 2 < |placesApart a b|) :
    a.toInt < b.toInt ∧ 2 < placesApart a b ∨ b.toInt < a.toInt ∧ placesApart a b < -2 := by
  have hcomm := placesApart_comm a b
  rw [lt_abs] at h
  rcases lt_trichotomy a.toInt b.toInt with hlt | heq | hgt
  · have hnonneg := placesApart_nonneg a b hlt.le
    omega
  · rw [Int64.toInt_inj.1 heq, placesApart_self] at h
    omega
  · have hnonneg := placesApart_nonneg b a hgt.le
    omega

theorem holds_eq_ofIntegers (h : a = b ∨ 2 < |placesApart a b|) (comparison : Comparison) :
    comparison.holds (.int a) (.int b) = comparison.ofIntegers a.toInt b.toInt := by
  rcases h with rfl | hapart
  · rw [holds_int, placesApart_self]
    cases comparison <;> simp [Comparison.ofIntegers]
  · have hcases := placesApart_cases a b hapart
    rw [holds_int, Bool.eq_iff_iff]
    cases comparison with
    | equal =>
        have hne : a.toInt ≠ b.toInt := by omega
        simp [Comparison.ofIntegers, hapart, hne]
    | notEqual =>
        have hne : a.toInt ≠ b.toInt := by omega
        simp [Comparison.ofIntegers, hapart, hne]
    | _ =>
        simp only [Comparison.ofIntegers, decide_eq_true_iff]
        omega

/-- Where an order is told at all, it is the order of the integers. -/
theorem order_of_holds :
    (Comparison.less.holds (.int a) (.int b) = true → a.toInt < b.toInt) ∧
      (Comparison.greater.holds (.int a) (.int b) = true → b.toInt < a.toInt) := by
  constructor
  · intro h
    by_contra hle
    have hnonneg := placesApart_nonneg b a (not_lt.1 hle)
    have hcomm := placesApart_comm a b
    rw [holds_int, decide_eq_true_iff] at h
    omega
  · intro h
    by_contra hle
    have hnonneg := placesApart_nonneg a b (not_lt.1 hle)
    rw [holds_int, decide_eq_true_iff] at h
    omega

end Values

/-- What exact comparisons of two operands give: each comparison, however it is spelled, gives the relation
between the integers, and equality gives what the equality of values says. -/
structure ComparesExactly (lookup : String → Except Fault (Option Value)) (first second : Expression)
    (a b : Int64) : Prop where
  relation : ∀ (comparison : Comparison) (spelling : Spelling (.compare comparison)),
    evaluate lookup (Expression.binary (.compare comparison) spelling first second).text =
      .ok (some (.bool (comparison.ofIntegers a.toInt b.toInt)))
  equality : ∀ spelling : Spelling (.compare .equal),
    evaluate lookup (Expression.binary (.compare .equal) spelling first second).text =
      .ok (some (.bool (Value.int a == Value.int b)))

section Texts

variable {lookup : String → Except Fault (Option Value)} {first second : Expression} {a b : Int64}

theorem evaluate_comparison (hfirst : first.formula.value lookup = .ok (.int a))
    (hsecond : second.formula.value lookup = .ok (.int b)) (comparison : Comparison)
    (spelling : Spelling (.compare comparison)) (holds : Bool) :
    evaluate lookup (Expression.binary (.compare comparison) spelling first second).text =
      .ok (some (.bool holds)) ↔ comparison.holds (.int a) (.int b) = holds := by
  have hvalue := Expression.evaluate_binary (.compare comparison) spelling hfirst hsecond
  have hpresent : Resolver.present (Operator.apply (.compare comparison) (.int a) (.int b)) =
      some (.bool (comparison.holds (.int a) (.int b))) := rfl
  rw [hvalue, hpresent]
  simp [pure, Except.pure]

/-- The comparisons of two operands that are integers are exact if and only if the integers are the same or the
floating-point numbers nearest to them are more than two places apart, which all different integers up to
`2 ^ 51` in size are. The sign of the order is right in any case. -/
theorem comparesExactly_iff (hfirst : first.formula.value lookup = .ok (.int a))
    (hsecond : second.formula.value lookup = .ok (.int b)) :
    (ComparesExactly lookup first second a b ↔ a = b ∨ 2 < |placesApart a b|) ∧
      (a.toInt.natAbs ≤ 2 ^ 51 → b.toInt.natAbs ≤ 2 ^ 51 → ComparesExactly lookup first second a b) ∧
      (∀ spelling, evaluate lookup (Expression.binary (.compare .less) spelling first second).text =
        .ok (some (.bool true)) → a.toInt < b.toInt) ∧
      ∀ spelling, evaluate lookup (Expression.binary (.compare .greater) spelling first second).text =
        .ok (some (.bool true)) → b.toInt < a.toInt := by
  have hexact (h : a = b ∨ 2 < |placesApart a b|) : ComparesExactly lookup first second a b := by
    constructor
    · intro comparison spelling
      apply (evaluate_comparison hfirst hsecond comparison spelling _).2
      exact holds_eq_ofIntegers a b h comparison
    · intro spelling
      apply (evaluate_comparison hfirst hsecond .equal spelling _).2
      rw [holds_eq_ofIntegers a b h, equal_int]
      rfl
  refine ⟨⟨fun h => ?_, hexact⟩, fun ha hb => ?_, fun spelling hless => ?_, fun spelling hgreater => ?_⟩
  · have hrelation := h.relation .equal ⟨['=', '='], .inl (by simp [signs])⟩
    rw [evaluate_comparison hfirst hsecond, holds_int] at hrelation
    by_contra hnear
    rw [not_or, not_lt] at hnear
    simp [Comparison.ofIntegers, hnear, Int64.toInt_inj] at hrelation
  · apply hexact
    by_cases heq : a = b
    · exact .inl heq
    · exact .inr (placesApart_small a b heq ha hb)
  · exact (order_of_holds a b).1 ((evaluate_comparison hfirst hsecond .less spelling true).1 hless)
  · exact (order_of_holds a b).2 ((evaluate_comparison hfirst hsecond .greater spelling true).1 hgreater)

/-- Two variables with integers as their values. -/
def twoIntegers (a b : Int64) (name : String) : Except Fault (Option Value) :=
  if name = "x" then .ok (some (.int a)) else .ok (some (.int b))

def firstVariable : Expression := .reference ⟨['x'], [], rfl, rfl, rfl⟩

def secondVariable : Expression := .reference ⟨['y'], [], rfl, rfl, rfl⟩

theorem value_firstVariable (a b : Int64) : firstVariable.formula.value (twoIntegers a b) = .ok (.int a) := rfl

theorem value_secondVariable (a b : Int64) : secondVariable.formula.value (twoIntegers a b) = .ok (.int b) := rfl

/-- Beyond `2 ^ 53` integers are compared exactly when they are eight apart. -/
theorem comparesExactly_far :
    ComparesExactly (twoIntegers 9007199254741000 9007199254740992) firstVariable secondVariable
      9007199254741000 9007199254740992 := by
  apply (comparesExactly_iff (value_firstVariable _ _) (value_secondVariable _ _)).1.2
  right
  decide +kernel

/-- Two integers that follow each other beyond `2 ^ 53` count as equal. -/
theorem not_comparesExactly :
    ¬ ∀ (lookup : String → Except Fault (Option Value)) (first second : Expression) (a b : Int64),
      first.formula.value lookup = .ok (.int a) → second.formula.value lookup = .ok (.int b) →
        ComparesExactly lookup first second a b := by
  intro hclaim
  have hfirst := value_firstVariable 9007199254740993 9007199254740992
  have hsecond := value_secondVariable 9007199254740993 9007199254740992
  have hequal := (hclaim _ _ _ _ _ hfirst hsecond).relation .equal ⟨['=', '='], .inl (by simp [signs])⟩
  rw [evaluate_comparison hfirst hsecond, holds_int] at hequal
  have hnear : |placesApart 9007199254740993 9007199254740992| ≤ 2 := by decide +kernel
  simp [Comparison.ofIntegers, hnear] at hequal

end Texts

end Stencil.Formula
