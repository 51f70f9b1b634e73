import Mathlib.Algebra.Order.Field.Basic
import Mathlib.Algebra.Order.Field.Power
import Mathlib.Data.Nat.Cast.Order.Field
import Mathlib.Data.Rat.Cast.Order
import Mathlib.Tactic.FieldSimp
import Mathlib.Tactic.Linarith
import Mathlib.Tactic.NormNum
import Mathlib.Tactic.Positivity
import Mathlib.Tactic.Ring
import Stencil.Decimal.Shortest

/-!
The decimals that read back to a floating-point number, as rational numbers. A number lies inside its own
interval with room for an error of one part in twenty thousand million millions, and the intervals of
different numbers have nothing in common.

The fewest digits of a number do read back to it. Whatever the search returns lies in the interval of the
number as soon as one of its grids has a hit, and the grid of seventeen digits always has one: its step is
so small that the nearer neighbour of the number is in the interval. Zeros at the end can be dropped.
-/

namespace Stencil.Decimal

/-- The number that digits stand for. -/
def Digits.value (d : Digits) : ℚ := d.digits * 10 ^ d.power

/-- A power whose exponent is an integer, from the powers of its two natural parts. -/
theorem zpow_mul_pow_toNat {base : ℚ} (hbase : base ≠ 0) (power : Int) :
    base ^ power * base ^ (-power).toNat = base ^ power.toNat := by
  rw [← zpow_natCast, ← zpow_natCast, ← zpow_add₀ hbase]
  congr 1
  omega

namespace Interval

variable (i : Interval)

/-- The ends of the interval and the number in it. -/
def least : ℚ := i.low / i.unit

def middle : ℚ := i.value / i.unit

def most : ℚ := i.high / i.unit

/-- The numbers of the interval. -/
def Contains (x : ℚ) : Prop :=
  if i.closed then i.least ≤ x ∧ x ≤ i.most else i.least < x ∧ x < i.most

variable {i}

theorem contains_of_between {x : ℚ} (hleast : i.least < x) (hmost : x < i.most) : i.Contains x := by
  unfold Contains
  split
  · exact ⟨hleast.le, hmost.le⟩
  · exact ⟨hleast, hmost⟩

theorem Contains.least_le {x : ℚ} (h : i.Contains x) : i.least ≤ x := by
  unfold Contains at h
  split at h
  · exact h.1
  · exact h.1.le

theorem Contains.le_most {x : ℚ} (h : i.Contains x) : x ≤ i.most := by
  unfold Contains at h
  split at h
  · exact h.2
  · exact h.2.le

theorem Contains.lt_of_open {x : ℚ} (h : i.Contains x) (hopen : i.closed = false) :
    i.least < x ∧ x < i.most := by
  unfold Contains at h
  rwa [hopen, if_neg Bool.false_ne_true] at h

/-- The test of digits in whole numbers is the test of their number. -/
theorem holds_iff (hunit : 0 < i.unit) (d : Digits) : i.holds d = true ↔ i.Contains d.value := by
  have hu : (0 : ℚ) < i.unit := Nat.cast_pos.2 hunit
  have hdown : (0 : ℚ) < 10 ^ (-d.power).toNat := by positivity
  have hpoint : ((d.digits * Nat.pow 10 d.power.toNat * i.unit : ℕ) : ℚ) =
      d.value * i.unit * 10 ^ (-d.power).toNat := by
    unfold Digits.value
    rw [Nat.pow_eq, Nat.cast_mul, Nat.cast_mul, Nat.cast_pow, Nat.cast_ofNat,
      ← zpow_mul_pow_toNat (by norm_num : (10 : ℚ) ≠ 0) d.power]
    ring
  have hend (n : ℕ) : ((n * Nat.pow 10 (-d.power).toNat : ℕ) : ℚ) = n * 10 ^ (-d.power).toNat := by
    rw [Nat.pow_eq, Nat.cast_mul, Nat.cast_pow, Nat.cast_ofNat]
  unfold holds Contains least most
  dsimp only
  split
  · rw [Bool.and_eq_true, decide_eq_true_iff, decide_eq_true_iff, ← Nat.cast_le (α := ℚ),
      ← Nat.cast_le (α := ℚ), hpoint, hend, hend, mul_le_mul_iff_left₀ hdown,
      mul_le_mul_iff_left₀ hdown, div_le_iff₀ hu, le_div_iff₀ hu]
  · rw [Bool.and_eq_true, decide_eq_true_iff, decide_eq_true_iff, ← Nat.cast_lt (α := ℚ),
      ← Nat.cast_lt (α := ℚ), hpoint, hend, hend, mul_lt_mul_iff_left₀ hdown,
      mul_lt_mul_iff_left₀ hdown, div_lt_iff₀ hu, lt_div_iff₀ hu]

end Interval

/-- A positive number taken apart as the format does it: all bits of the mantissa are used unless the
scale is the least one. -/
structure Canonical (mantissa : Nat) (scale : Int) : Prop where
  pos : 0 < mantissa
  lt : mantissa < 2 ^ 53
  least_le : -1074 ≤ scale
  full : scale = -1074 ∨ 2 ^ 52 ≤ mantissa

/-- A quarter of the distance to the next number above. -/
def quarter (scale : Int) : ℚ := 2 ^ (scale - 2)

theorem quarter_pos (scale : Int) : 0 < quarter scale := zpow_pos (by norm_num) _

/-- How many quarters the interval reaches below its number. -/
def below (mantissa : Nat) (scale : Int) : Nat :=
  if mantissa = 2 ^ 52 ∧ -1074 < scale then 1 else 2

namespace Interval

variable {mantissa : Nat} {scale : Int}

theorem unit_pos (mantissa : Nat) (scale : Int) : 0 < (Interval.of mantissa scale).unit :=
  Nat.pow_pos (by norm_num)

/-- A multiple of the quarter in the terms of the interval. -/
theorem quarters_div (n : Nat) :
    ((n * Nat.pow 2 (scale - 2).toNat : ℕ) : ℚ) / (Nat.pow 2 (2 - scale).toNat : ℕ) =
      n * quarter scale := by
  have hunit : (0 : ℚ) < 2 ^ (2 - scale).toNat := by positivity
  have hpow := zpow_mul_pow_toNat (by norm_num : (2 : ℚ) ≠ 0) (scale - 2)
  rw [neg_sub] at hpow
  unfold quarter
  rw [Nat.pow_eq, Nat.pow_eq, Nat.cast_mul, Nat.cast_pow, Nat.cast_pow, Nat.cast_ofNat, ← hpow,
    div_eq_iff hunit.ne']
  ring

theorem middle_of : (Interval.of mantissa scale).middle = 4 * mantissa * quarter scale := by
  unfold middle Interval.of
  rw [quarters_div]
  push_cast
  rfl

theorem most_of : (Interval.of mantissa scale).most = (4 * mantissa + 2) * quarter scale := by
  unfold most Interval.of
  rw [quarters_div]
  push_cast
  rfl

theorem least_of (hpos : 0 < mantissa) :
    (Interval.of mantissa scale).least = (4 * mantissa - below mantissa scale) * quarter scale := by
  have hbelow : below mantissa scale ≤ 4 * mantissa := by
    unfold below
    split <;> omega
  unfold least Interval.of
  rw [quarters_div]
  change ((4 * mantissa - below mantissa scale : ℕ) : ℚ) * _ = _
  rw [Nat.cast_sub hbelow]
  push_cast
  rfl

theorem least_pos (hpos : 0 < mantissa) (scale : Int) : 0 < (Interval.of mantissa scale).least := by
  have hbelow : below mantissa scale ≤ 2 := by
    unfold below
    split <;> omega
  have hfirst : (1 : ℚ) ≤ mantissa := Nat.one_le_cast.2 hpos
  have hsecond : (below mantissa scale : ℚ) ≤ 2 := by exact_mod_cast hbelow
  rw [least_of hpos]
  exact mul_pos (by linarith) (quarter_pos scale)

/-- Whatever is as near to a number as half a step of its seventeenth digit lies in its interval. -/
theorem contains_of_near (h : Canonical mantissa scale) {x : ℚ}
    (hbelow : (Interval.of mantissa scale).middle - x ≤
      (Interval.of mantissa scale).middle / (2 * 10 ^ 16))
    (habove : x - (Interval.of mantissa scale).middle ≤
      (Interval.of mantissa scale).middle / (2 * 10 ^ 16)) :
    (Interval.of mantissa scale).Contains x := by
  have hquarter := quarter_pos scale
  have hlt : (mantissa : ℚ) < 9007199254740992 := by exact_mod_cast h.lt
  have hroom : 4 * (mantissa : ℚ) / (2 * 10 ^ 16) < below mantissa scale := by
    unfold below
    split
    next hpower =>
      rw [hpower.1]
      norm_num
    next =>
      rw [div_lt_iff₀ (by norm_num)]
      norm_num
      linarith
  have hbelow_le : (below mantissa scale : ℚ) ≤ 2 := by
    unfold below
    split <;> norm_num
  have herror : 4 * (mantissa : ℚ) * quarter scale / (2 * 10 ^ 16) <
      below mantissa scale * quarter scale := by
    rw [mul_div_right_comm]
    exact mul_lt_mul_of_pos_right hroom hquarter
  have htwo : below mantissa scale * quarter scale ≤ 2 * quarter scale :=
    mul_le_mul_of_nonneg_right hbelow_le hquarter.le
  rw [middle_of] at hbelow habove
  apply contains_of_between
  · rw [least_of h.pos, sub_mul]
    linarith
  · rw [most_of, add_mul]
    linarith

/-- The number of one scale comes before every number of a larger one, as a smaller number of the same
scale does. -/
def Before (mantissa : Nat) (scale : Int) (mantissa' : Nat) (scale' : Int) : Prop :=
  scale < scale' ∨ scale = scale' ∧ mantissa < mantissa'

variable {mantissa' : Nat} {scale' : Int}

/-- The interval of a number ends before the interval of a later number begins. They meet in one point at
the most, and then one of them is open. -/
theorem most_le_least (h : Canonical mantissa scale) (h' : Canonical mantissa' scale')
    (before : Before mantissa scale mantissa' scale') :
    (Interval.of mantissa scale).most ≤ (Interval.of mantissa' scale').least ∧
      (mantissa % 2 = 0 → mantissa' % 2 = 0 →
        (Interval.of mantissa scale).most < (Interval.of mantissa' scale').least) := by
  have hquarter := quarter_pos scale
  rw [most_of, least_of h'.pos]
  rcases before with hscale | ⟨rfl, hmantissa⟩
  · -- the larger scale is not the least one, so that its mantissa is full
    have hfull : 2 ^ 52 ≤ mantissa' := h'.full.resolve_left (by have := h.least_le; omega)
    have hdouble : 2 * quarter scale ≤ quarter scale' := by
      unfold quarter
      rw [← zpow_one_add₀ (by norm_num : (2 : ℚ) ≠ 0)]
      exact zpow_le_zpow_right₀ (by norm_num) (by omega)
    have hends : 4 * mantissa + 2 + 2 * below mantissa' scale' ≤ 8 * mantissa' ∧
        (mantissa % 2 = 0 → 4 * mantissa + 2 + 2 * below mantissa' scale' < 8 * mantissa') := by
      have := h.lt
      have := h.least_le
      unfold below
      split <;> omega
    have hcast : (4 * mantissa + 2 + 2 * below mantissa' scale' : ℚ) ≤ 8 * mantissa' := by
      exact_mod_cast hends.1
    have hleast : 0 ≤ 4 * (mantissa' : ℚ) - below mantissa' scale' := by
      have : (0 : ℚ) ≤ mantissa := Nat.cast_nonneg _
      linarith
    have hscaled := mul_le_mul_of_nonneg_left hdouble hleast
    refine ⟨?_, fun heven _ => ?_⟩
    · have := mul_le_mul_of_nonneg_right hcast hquarter.le
      linarith
    · have hstrict : (4 * mantissa + 2 + 2 * below mantissa' scale' : ℚ) < 8 * mantissa' := by
        exact_mod_cast hends.2 heven
      have := mul_lt_mul_of_pos_right hstrict hquarter
      linarith
  · have hends : 4 * mantissa + 2 + below mantissa' scale ≤ 4 * mantissa' ∧
        (mantissa % 2 = 0 → mantissa' % 2 = 0 →
          4 * mantissa + 2 + below mantissa' scale < 4 * mantissa') := by
      unfold below
      split <;> omega
    refine ⟨mul_le_mul_of_nonneg_right ?_ hquarter.le, fun heven heven' =>
      mul_lt_mul_of_pos_right ?_ hquarter⟩
    · rw [le_sub_iff_add_le]
      exact_mod_cast hends.1
    · rw [lt_sub_iff_add_lt]
      exact_mod_cast hends.2 heven heven'

theorem not_contains_of_before (h : Canonical mantissa scale) (h' : Canonical mantissa' scale')
    (before : Before mantissa scale mantissa' scale') {x : ℚ}
    (hx : (Interval.of mantissa scale).Contains x) :
    ¬ (Interval.of mantissa' scale').Contains x := by
  intro hx'
  obtain ⟨hle, hlt⟩ := most_le_least h h' before
  have hmeet := hx'.least_le
  have hmeet' := hx.le_most
  cases hodd : (Interval.of mantissa scale).closed with
  | false => linarith [(hx.lt_of_open hodd).2]
  | true =>
      cases hodd' : (Interval.of mantissa' scale').closed with
      | false => linarith [(hx'.lt_of_open hodd').1]
      | true => linarith [hlt (of_decide_eq_true hodd) (of_decide_eq_true hodd')]

/-- No decimal reads back to two numbers. -/
theorem eq_of_contains (h : Canonical mantissa scale) (h' : Canonical mantissa' scale') {x : ℚ}
    (hx : (Interval.of mantissa scale).Contains x) (hx' : (Interval.of mantissa' scale').Contains x) :
    mantissa = mantissa' ∧ scale = scale' := by
  rcases lt_trichotomy scale scale' with hscale | rfl | hscale
  · exact absurd hx' (not_contains_of_before h h' (Or.inl hscale) hx)
  · rcases lt_trichotomy mantissa mantissa' with hmantissa | rfl | hmantissa
    · exact absurd hx' (not_contains_of_before h h' (Or.inr ⟨rfl, hmantissa⟩) hx)
    · exact ⟨rfl, rfl⟩
    · exact absurd hx (not_contains_of_before h' h (Or.inr ⟨rfl, hmantissa⟩) hx')
  · exact absurd hx (not_contains_of_before h' h (Or.inl hscale) hx')

end Interval

namespace Interval

variable {i : Interval}

theorem holds_of_onGrid? {tie : Tie} {power : Int} {d : Digits} (h : i.onGrid? tie power = some d) :
    i.holds d = true := by
  unfold onGrid? at h
  dsimp only at h
  split at h
  · cases h
  next hlower _ =>
    cases h
    exact (Bool.and_eq_true_iff.1 hlower).2
  next hupper =>
    cases h
    exact hupper
  next hlower hupper =>
    have hlower := (Bool.and_eq_true_iff.1 hlower).2
    split at h
    · cases h
      exact hlower
    · split at h
      · cases h
        exact hupper
      · cases tie with
        | up =>
            cases h
            exact hupper
        | even =>
            obtain rfl := Option.some.inj h
            split
            · exact hlower
            · exact hupper

/-- A search that reaches a grid with a hit ends in the interval. -/
theorem holds_search {tie : Tie} {power : Int} {count : Nat}
    (hit : ∃ turns < count, i.onGrid? tie (power - turns) ≠ none) :
    i.holds (i.search tie power count) = true := by
  induction count generalizing power with
  | zero => exact absurd hit.choose_spec.1 (Nat.not_lt_zero _)
  | succ count ih =>
      rw [search]
      cases hgrid : i.onGrid? tie power with
      | some d => exact holds_of_onGrid? hgrid
      | none =>
          obtain ⟨turns, hturns, hhit⟩ := hit
          cases turns with
          | zero => exact absurd (by simpa using hgrid) hhit
          | succ turns =>
              refine ih ⟨turns, Nat.lt_of_succ_lt_succ hturns, ?_⟩
              rwa [show power - ↑(turns + 1) = power - 1 - ↑turns by omega] at hhit

/-- The power of ten at the first digit of a number does not exceed it. -/
theorem pow_exponent_le (hvalue : 0 < i.value) (hunit : 0 < i.unit) :
    (10 : ℚ) ^ i.exponent ≤ i.middle := by
  have hu : (0 : ℚ) < i.unit := Nat.cast_pos.2 hunit
  have hv : (0 : ℚ) < i.value := Nat.cast_pos.2 hvalue
  unfold exponent middle
  split
  next hle =>
    have hquotient : i.value / i.unit ≠ 0 := (Nat.div_pos hle hunit).ne'
    have hlength := Nat.length_toDigits_pos (b := 10) (n := i.value / i.unit)
    generalize hcount : (Nat.toDigits 10 (i.value / i.unit)).length = count at hlength
    obtain ⟨count, rfl⟩ := Nat.exists_eq_add_of_lt hlength
    have hpow : 10 ^ count ≤ i.value / i.unit := by
      rcases count.eq_zero_or_pos with rfl | hpos
      · exact Nat.pos_of_ne_zero hquotient
      · refine not_lt.1 fun hlt => ?_
        have := (Nat.length_toDigits_le_iff (by norm_num) hpos).2 hlt
        omega
    calc (10 : ℚ) ^ (((0 + count + 1 : ℕ) : ℤ) - 1)
        = ((10 ^ count : ℕ) : ℚ) := by
          rw [show ((0 + count + 1 : ℕ) : ℤ) - 1 = (count : ℤ) by omega, zpow_natCast]
          push_cast
          rfl
      _ ≤ ((i.value / i.unit : ℕ) : ℚ) := Nat.cast_le.2 hpow
      _ ≤ i.value / i.unit := Nat.cast_div_le
  next =>
    have hlt : i.unit / i.value < 10 ^ (Nat.toDigits 10 (i.unit / i.value)).length :=
      (Nat.length_toDigits_le_iff (by norm_num) Nat.length_toDigits_pos).1 le_rfl
    have hunit_le : (i.unit : ℚ) ≤ 10 ^ (Nat.toDigits 10 (i.unit / i.value)).length * i.value := by
      exact_mod_cast ((Nat.div_lt_iff_lt_mul hvalue).1 hlt).le
    rw [zpow_neg, zpow_natCast, le_div_iff₀ hu, inv_mul_le_iff₀ (by positivity)]
    exact hunit_le

/-- The whole steps of a grid up to a number, and their number of steps in terms of the interval. -/
theorem floor_le (hunit : 0 < i.unit) (power : Int) :
    let floor := i.value * Nat.pow 10 (-power).toNat / (i.unit * Nat.pow 10 power.toNat)
    (floor : ℚ) * 10 ^ power ≤ i.middle ∧ i.middle < (floor + 1) * 10 ^ power := by
  intro floor
  have hu : (0 : ℚ) < i.unit := Nat.cast_pos.2 hunit
  have hten : (0 : ℚ) < 10 ^ power := zpow_pos (by norm_num) _
  have hdown : (0 : ℚ) < 10 ^ (-power).toNat := by positivity
  have hsplit := zpow_mul_pow_toNat (by norm_num : (10 : ℚ) ≠ 0) power
  have hstep : 0 < i.unit * Nat.pow 10 power.toNat := Nat.mul_pos hunit (Nat.pow_pos (by norm_num))
  have hle : (floor * (i.unit * Nat.pow 10 power.toNat) : ℚ) ≤ i.value * 10 ^ (-power).toNat := by
    exact_mod_cast Nat.div_mul_le_self _ _
  have hlt : (i.value * 10 ^ (-power).toNat : ℚ) < (floor + 1) * (i.unit * 10 ^ power.toNat) := by
    exact_mod_cast (Nat.div_lt_iff_lt_mul hstep).1 (Nat.lt_succ_self floor)
  rw [Nat.pow_eq, Nat.cast_pow, Nat.cast_ofNat, ← hsplit] at hle
  rw [← hsplit] at hlt
  unfold middle
  constructor
  · rw [le_div_iff₀ hu]
    refine le_of_mul_le_mul_right ?_ hdown
    linarith
  · rw [div_lt_iff₀ hu]
    refine lt_of_mul_lt_mul_right ?_ hdown.le
    linarith

variable {mantissa : Nat} {scale : Int}

/-- The grid of seventeen digits has a hit. -/
theorem onGrid?_ne_none (h : Canonical mantissa scale) (tie : Tie) :
    (Interval.of mantissa scale).onGrid? tie ((Interval.of mantissa scale).exponent - 16) ≠ none := by
  have hunit := unit_pos mantissa scale
  have hvalue : 0 < (Interval.of mantissa scale).value :=
    Nat.mul_pos (Nat.mul_pos (by norm_num) h.pos) (Nat.pow_pos (by norm_num))
  have hfirst := pow_exponent_le hvalue hunit
  have hnear (x : ℚ) := contains_of_near h (x := x)
  generalize Interval.of mantissa scale = i at hunit hvalue hfirst hnear ⊢
  have hbounds := floor_le hunit (i.exponent - 16)
  dsimp only at hbounds
  unfold onGrid?
  dsimp only
  generalize hfloor : i.value * Nat.pow 10 (-(i.exponent - 16)).toNat /
    (i.unit * Nat.pow 10 (i.exponent - 16).toNat) = floor at hbounds ⊢
  obtain ⟨hle, hlt⟩ := hbounds
  have hten : (10 : ℚ) ^ i.exponent = 10 ^ (i.exponent - 16) * 10 ^ 16 := by
    rw [zpow_sub₀ (by norm_num)]
    norm_num
  have hpos : (0 : ℚ) < 10 ^ (i.exponent - 16) := zpow_pos (by norm_num) _
  rw [hten] at hfirst
  generalize hstep : (10 : ℚ) ^ (i.exponent - 16) = step at hle hlt hpos hfirst
  -- half a step of the grid is within the room that the interval has
  have herror : step / 2 ≤ i.middle / (2 * 10 ^ 16) := by
    rw [le_div_iff₀ (by norm_num)]
    linarith
  have hsome : i.holds ⟨floor, i.exponent - 16⟩ = true ∨ i.holds ⟨floor + 1, i.exponent - 16⟩ = true := by
    rw [holds_iff hunit, holds_iff hunit]
    unfold Digits.value
    dsimp only
    rw [hstep]
    push_cast
    rcases le_total (i.middle - floor * step) (step / 2) with hlower | hupper
    · exact Or.inl (hnear _ (hlower.trans herror) (by linarith))
    · exact Or.inr (hnear _ (by linarith) (by linarith))
  have hfloor_pos : 0 < floor := by
    refine Nat.pos_of_ne_zero fun hzero => ?_
    rw [hzero] at hlt
    norm_num at hlt hfirst
    linarith
  rw [decide_eq_true hfloor_pos, Bool.true_and]
  intro hnone
  split at hnone
  next hl hu =>
    rcases hsome with hholds | hholds
    · exact Bool.false_ne_true (hl.symm.trans hholds)
    · exact Bool.false_ne_true (hu.symm.trans hholds)
  · cases hnone
  · cases hnone
  · split at hnone
    · cases hnone
    · split at hnone
      · cases hnone
      · cases tie with
        | up => cases hnone
        | even => cases hnone

end Interval

theorem value_strip (d : Digits) (count : Nat) : (d.strip count).value = d.value := by
  induction count generalizing d with
  | zero => rfl
  | succ count ih =>
      rw [Digits.strip]
      split
      next hzero =>
        rw [ih]
        unfold Digits.value
        have hdigits : (d.digits : ℚ) = (d.digits / 10 : ℕ) * 10 := by
          exact_mod_cast (Nat.div_mul_cancel (Nat.dvd_of_mod_eq_zero hzero)).symm
        rw [hdigits, zpow_add_one₀ (by norm_num)]
        ring
      next => rfl

/-- The fewest digits of a number lie in its interval. -/
theorem contains_shortest {mantissa : Nat} {scale : Int} (h : Canonical mantissa scale) (tie : Tie) :
    (Interval.of mantissa scale).Contains (shortest tie mantissa scale).value := by
  unfold shortest
  dsimp only
  rw [value_strip, ← Interval.holds_iff (Interval.unit_pos mantissa scale)]
  exact Interval.holds_search ⟨16, by norm_num, by exact_mod_cast Interval.onGrid?_ne_none h tie⟩

end Stencil.Decimal
