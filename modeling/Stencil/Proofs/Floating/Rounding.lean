import Mathlib.Data.Nat.Log
import Mathlib.Tactic.NormNum
import Stencil.Floating

/-!
Rounding a natural number to a floating-point number. A number of more than 53 binary digits loses its last
ones, and the guard bits of the shift decide as the remainder of a division would: to the nearest number, and
to the even one of two. The numbers that come out stand at places in the order of all positive numbers; a
greater number never stands at an earlier place, and below `2 ^ 51` each number has four places to itself.
-/

namespace Stencil.Floating

open Float.Model UnpackedFloat

/-- `m / 2 ^ k`, rounded to the nearest natural number, and to the even one of two. -/
def halved (m k : Nat) : Nat :=
  if 2 * (m % 2 ^ k) < 2 ^ k then m / 2 ^ k
  else if 2 * (m % 2 ^ k) = 2 ^ k then m / 2 ^ k + m / 2 ^ k % 2
  else m / 2 ^ k + 1

theorem shiftRight_exact (m k : Nat) :
    (ExtendedMantissa.mk m false false) >>> k =
      ⟨m / 2 ^ k, decide (2 ^ k ≤ 2 * (m % 2 ^ k)), decide (m % 2 ^ k ≠ 0 ∧ 2 * (m % 2 ^ k) ≠ 2 ^ k)⟩ := by
  induction k with
  | zero => simp [HShiftRight.hShiftRight, Nat.repeat, Nat.mod_one]
  | succ k ih =>
      have hstep : (ExtendedMantissa.mk m false false) >>> (k + 1) =
          ((ExtendedMantissa.mk m false false) >>> k).shiftRightOne := rfl
      have hlow : m % 2 ^ k < 2 ^ k := Nat.mod_lt m (Nat.two_pow_pos k)
      have hmod : m % 2 ^ (k + 1) = m % 2 ^ k + 2 ^ k * (m / 2 ^ k % 2) := Nat.mod_pow_succ
      have hdiv : m / 2 ^ k / 2 = m / 2 ^ (k + 1) := by
        rw [Nat.div_div_eq_div_mul, Nat.pow_succ]
      rw [hstep, ih, ExtendedMantissa.shiftRightOne, hdiv, hmod, Nat.pow_succ']
      congr 1
      · rw [Bool.eq_iff_iff, bne_iff_ne, decide_eq_true_iff]
        rcases Nat.mod_two_eq_zero_or_one (m / 2 ^ k) with hbit | hbit <;> rw [hbit] <;> omega
      · rw [Bool.eq_iff_iff, Bool.or_eq_true, decide_eq_true_iff, decide_eq_true_iff, decide_eq_true_iff]
        rcases Nat.mod_two_eq_zero_or_one (m / 2 ^ k) with hbit | hbit <;> rw [hbit] <;> omega

theorem roundedMantissa_exact (m k : Nat) :
    ((ExtendedMantissa.mk m false false) >>> k).roundedMantissa = halved m k := by
  rw [shiftRight_exact]
  unfold halved
  by_cases hlow : 2 * (m % 2 ^ k) < 2 ^ k
  · rw [if_pos hlow, decide_eq_false (Nat.not_le.2 hlow)]
    cases decide (m % 2 ^ k ≠ 0 ∧ 2 * (m % 2 ^ k) ≠ 2 ^ k) <;> rfl
  · rw [if_neg hlow, decide_eq_true (Nat.not_lt.1 hlow)]
    by_cases htie : 2 * (m % 2 ^ k) = 2 ^ k
    · rw [if_pos htie, decide_eq_false (fun h => h.2 htie)]
      rfl
    · have hrest : m % 2 ^ k ≠ 0 := by
        have := Nat.two_pow_pos k
        omega
      rw [if_neg htie, decide_eq_true ⟨hrest, htie⟩]
      rfl

theorem halved_of_dvd {m k : Nat} (h : m % 2 ^ k = 0) : halved m k = m / 2 ^ k := by
  rw [halved, if_pos]
  rw [h]
  exact Nat.two_pow_pos k

theorem halved_mono {m n : Nat} (k : Nat) (h : m ≤ n) : halved m k ≤ halved n k := by
  have hquotient : m / 2 ^ k ≤ n / 2 ^ k := Nat.div_le_div_right h
  rcases hquotient.eq_or_lt with heq | hlt
  · have hm := Nat.div_add_mod m (2 ^ k)
    have hn := Nat.div_add_mod n (2 ^ k)
    rw [heq] at hm
    unfold halved
    rw [heq]
    generalize 2 ^ k * (n / 2 ^ k) = base at hm hn
    split <;> split <;> (try split) <;> (try split) <;> omega
  · have hup : halved m k ≤ m / 2 ^ k + 1 := by
      unfold halved
      split <;> (try split) <;> omega
    have hdown : n / 2 ^ k ≤ halved n k := by
      unfold halved
      split <;> (try split) <;> omega
    omega

/-- The significand of the number nearest to a positive integer, before a carry: the integer is
scaled to 53 digits, and rounded where it has more. -/
def significand (m : Nat) : Nat := if m.log2 ≤ 52 then m * 2 ^ (52 - m.log2) else halved m (m.log2 - 52)

/-- The place of the number nearest to a natural number among the floating-point numbers from zero
on. Each power of two starts `2 ^ 52` places behind the one before. -/
def place (m : Nat) : Nat := if m = 0 then 0 else (m.log2 + 1022) * 2 ^ 52 + significand m

/-- Scaled to 53 digits, a number and the one behind it stay within them. -/
theorem scaled_le {m : Nat} (h : m.log2 ≤ 52) : (m + 1) * 2 ^ (52 - m.log2) ≤ 2 ^ 53 := by
  have hscale : 2 ^ (m.log2 + 1) * 2 ^ (52 - m.log2) = 2 ^ 53 := by
    rw [← Nat.pow_add]
    congr 1
    omega
  rw [← hscale]
  exact Nat.mul_le_mul_right _ Nat.lt_log2_self

theorem significand_of_short {m : Nat} (h : m.log2 ≤ 52) : significand m = m * 2 ^ (52 - m.log2) := by
  rw [significand, if_pos h]

theorem significand_of_long {m : Nat} (h : ¬ m.log2 ≤ 52) : significand m = halved m (m.log2 - 52) := by
  rw [significand, if_neg h]

theorem significand_bounds {m : Nat} (h : 0 < m) : 2 ^ 52 ≤ significand m ∧ significand m ≤ 2 ^ 53 := by
  have hlow : 2 ^ m.log2 ≤ m := Nat.log2_self_le h.ne'
  by_cases hshort : m.log2 ≤ 52
  · have hscale : 2 ^ m.log2 * 2 ^ (52 - m.log2) = 2 ^ 52 := by
      rw [← Nat.pow_add, Nat.add_sub_cancel' hshort]
    rw [significand_of_short hshort]
    constructor
    · rw [← hscale]
      exact Nat.mul_le_mul_right _ hlow
    · exact (Nat.mul_le_mul_right _ m.le_succ).trans (scaled_le hshort)
  · have hhigh : m ≤ 2 ^ (m.log2 + 1) := Nat.lt_log2_self.le
    have hscale (j : Nat) : halved (2 ^ j * 2 ^ (m.log2 - 52)) (m.log2 - 52) = 2 ^ j := by
      rw [halved_of_dvd (Nat.mul_mod_left ..), Nat.mul_div_cancel _ (Nat.two_pow_pos _)]
    have hlow' : 2 ^ 52 * 2 ^ (m.log2 - 52) = 2 ^ m.log2 := by
      rw [← Nat.pow_add, Nat.add_sub_cancel' (by omega)]
    have hhigh' : 2 ^ 53 * 2 ^ (m.log2 - 52) = 2 ^ (m.log2 + 1) := by
      rw [← Nat.pow_add]
      congr 1
      omega
    rw [significand_of_long hshort]
    constructor
    · rw [← hscale 52, hlow']
      exact halved_mono _ hlow
    · rw [← hscale 53, hhigh']
      exact halved_mono _ hhigh

theorem log2_mono {m n : Nat} (h : m ≤ n) : m.log2 ≤ n.log2 := by
  rw [Nat.log2_eq_log_two, Nat.log2_eq_log_two]
  exact Nat.log_mono_right h

theorem place_of_pos {m : Nat} (h : 0 < m) : place m = (m.log2 + 1022) * 2 ^ 52 + significand m := by
  rw [place, if_neg h.ne']

theorem place_mono {m n : Nat} (h : m ≤ n) : place m ≤ place n := by
  rcases Nat.eq_zero_or_pos m with rfl | hm
  · exact Nat.zero_le _
  · have hn : 0 < n := hm.trans_le h
    have hm' := significand_bounds hm
    have hn' := significand_bounds hn
    rw [place_of_pos hm, place_of_pos hn]
    rcases (log2_mono h).eq_or_lt with heq | hlt
    · have hle : significand m ≤ significand n := by
        unfold significand
        rw [← heq]
        split
        · exact Nat.mul_le_mul_right _ h
        · exact halved_mono _ h
      omega
    · omega

/-- Up to `2 ^ 51` integers that follow each other are at least four places apart. -/
theorem place_add_four_le {m : Nat} (h : m < 2 ^ 51) : place m + 4 ≤ place (m + 1) := by
  have hnext := significand_bounds (Nat.succ_pos m)
  rw [place_of_pos (Nat.succ_pos m)]
  rcases Nat.eq_zero_or_pos m with rfl | hm
  · rw [place, if_pos rfl]
    omega
  · have hlog : m.log2 < 51 := (Nat.log2_lt hm.ne').2 h
    have hgap : 2 ^ 2 ≤ 2 ^ (52 - m.log2) := Nat.pow_le_pow_right (by omega) (by omega)
    have hshort : m.log2 ≤ 52 := by omega
    have hfull := scaled_le hshort
    rw [place_of_pos hm, significand_of_short hshort]
    rw [Nat.succ_mul] at hfull
    rcases (log2_mono (Nat.le_succ m)).eq_or_lt with heq | hlt
    · have hsame : significand (m + 1) = m * 2 ^ (52 - m.log2) + 2 ^ (52 - m.log2) := by
        rw [significand_of_short (heq ▸ hshort), ← heq, Nat.succ_mul]
      rw [hsame, ← heq]
      omega
    · omega

theorem place_add_four_mul_le {m n : Nat} (h : m ≤ n) (hn : n ≤ 2 ^ 51) :
    place m + 4 * (n - m) ≤ place n := by
  induction h with
  | refl => simp
  | @step n hle ih =>
      have hstep := place_add_four_le (m := n) (by omega)
      have hbefore := ih (by omega)
      have hle : m ≤ n := hle
      rw [Nat.succ_eq_add_one]
      omega

theorem targetExponent_binary64 (exponent : Int) :
    Format.binary64.targetExponent exponent = max (exponent - 53) (-1074) := rfl

theorem shiftToTargetExponent_exact {m : Nat} {e : Int} (h : 52 ≤ m.log2) (he : -1074 ≤ e) :
    shiftToTargetExponent .binary64 m e .exact =
      (ExtendedMantissa.mk m false false >>> (m.log2 - 52), e + (m.log2 - 52 : Nat)) := by
  have hshift : (max ((m.log2 : Int) + 1 + e - 53) (-1074) - e).toNat = m.log2 - 52 := by omega
  unfold shiftToTargetExponent shiftToExponent
  simp only [targetExponent_binary64, Float.Model.totalExponent, hshift]
  rfl

theorem log2_eq_of_bounds {m k : Nat} (hlow : 2 ^ k ≤ m) (hhigh : m < 2 ^ (k + 1)) : m.log2 = k := by
  have hm : m ≠ 0 := fun h => by
    have := Nat.two_pow_pos k
    omega
  apply le_antisymm
  · exact Nat.lt_succ_iff.1 ((Nat.log2_lt hm).2 hhigh)
  · exact (Nat.le_log2 hm).2 hlow

/-- Rounding gives a significand of 53 digits; a carry makes it the smallest one of the next power. -/
theorem roundWithAccuracy_exact (s : Sign) {m : Nat} {e : Int} (h : 52 ≤ m.log2) (he : -1074 ≤ e)
    (hlow : 2 ^ 52 ≤ halved m (m.log2 - 52)) (hhigh : halved m (m.log2 - 52) ≤ 2 ^ 53) :
    ∃ M E hM, roundWithAccuracy .binary64 s m e .exact = .finite s M E hM ∧
      2 ^ 52 ≤ M ∧ M < 2 ^ 53 ∧ e + m.log2 - 52 ≤ E ∧ E ≤ e + m.log2 - 51 ∧
      E * 2 ^ 52 + M = (e + m.log2 - 52) * 2 ^ 52 + halved m (m.log2 - 52) := by
  generalize hR : halved m (m.log2 - 52) = R at hlow hhigh ⊢
  have hlog : 52 ≤ R.log2 := (Nat.le_log2 (by omega)).2 hlow
  have hrounded : roundWithAccuracy .binary64 s m e .exact =
      if h : R / 2 ^ (R.log2 - 52) = 0 then .zero s
      else .finite s (R / 2 ^ (R.log2 - 52)) (e + (m.log2 - 52 : Nat) + (R.log2 - 52 : Nat))
        (Nat.pos_of_ne_zero h) := by
    rw [roundWithAccuracy, shiftToTargetExponent_exact h he]
    dsimp only
    rw [roundedMantissa_exact, hR, shiftToTargetExponent_exact hlog (by omega), shiftRight_exact]
  have hcarry : R.log2 = 52 ∧ R < 2 ^ 53 ∨ R = 2 ^ 53 ∧ R.log2 = 53 := by
    rcases hhigh.eq_or_lt with rfl | hlt
    · exact Or.inr ⟨rfl, Nat.log2_two_pow⟩
    · exact Or.inl ⟨log2_eq_of_bounds hlow hlt, hlt⟩
  have hpos : R / 2 ^ (R.log2 - 52) ≠ 0 := by
    rcases hcarry with ⟨hlog', -⟩ | ⟨rfl, hlog'⟩ <;> rw [hlog'] <;> omega
  rw [dif_neg hpos] at hrounded
  refine ⟨_, _, _, hrounded, ?_⟩
  rcases hcarry with ⟨hlog', hlt⟩ | ⟨rfl, hlog'⟩ <;> rw [hlog'] <;> omega

theorem round_exact (s : Sign) {m : Nat} (hm : 0 < m) :
    ∃ M E hM, UnpackedFloat.round .binary64 s m 0 = .finite s M E hM ∧ 2 ^ 52 ≤ M ∧ M < 2 ^ 53 ∧
      (m.log2 : Int) - 52 ≤ E ∧ E ≤ m.log2 - 51 ∧ (place m : Int) = (E + 1074) * 2 ^ 52 + M := by
  have hbounds := significand_bounds hm
  have htarget : max ((m.log2 : Int) + 1 + 0 - 53) (-1074) = m.log2 - 52 := by omega
  have hscale : UnpackedFloat.round .binary64 s m 0 =
      roundWithAccuracy .binary64 s (m <<< (0 - ((m.log2 : Int) - 52)).toNat)
        (0 - ((0 - ((m.log2 : Int) - 52)).toNat : Nat)) .exact := by
    unfold UnpackedFloat.round decreaseExponent
    simp only [targetExponent_binary64, Float.Model.totalExponent, htarget]
  rw [place_of_pos hm, hscale]
  by_cases hshort : m.log2 ≤ 52
  · have hamount : (0 - ((m.log2 : Int) - 52)).toNat = 52 - m.log2 := by omega
    have hscaled : significand m = m <<< (52 - m.log2) := by
      rw [significand_of_short hshort, Nat.shiftLeft_eq]
    have hlog : (m <<< (52 - m.log2)).log2 = 52 := by
      have hfull := scaled_le hshort
      rw [Nat.succ_mul, ← Nat.shiftLeft_eq] at hfull
      rw [hscaled] at hbounds
      have hgap := Nat.two_pow_pos (52 - m.log2)
      exact log2_eq_of_bounds hbounds.1 (by omega)
    have hwhole : halved (m <<< (52 - m.log2)) ((m <<< (52 - m.log2)).log2 - 52) = significand m := by
      rw [hlog, hscaled, halved_of_dvd (Nat.mod_one _), Nat.sub_self, Nat.pow_zero, Nat.div_one]
    rw [hamount]
    rw [← hwhole] at hbounds ⊢
    obtain ⟨M, E, hM, hround, hrest⟩ := roundWithAccuracy_exact (e := 0 - (52 - m.log2 : Nat)) s
      hlog.ge (by omega) hbounds.1 hbounds.2
    refine ⟨M, E, hM, hround, ?_⟩
    push_cast
    omega
  · have hamount : (0 - ((m.log2 : Int) - 52)).toNat = 0 := by omega
    rw [hamount, Nat.shiftLeft_zero, Nat.cast_zero, Int.sub_zero]
    rw [significand_of_long hshort] at hbounds ⊢
    obtain ⟨M, E, hM, hround, hrest⟩ :=
      roundWithAccuracy_exact (e := 0) s (by omega) (by omega) hbounds.1 hbounds.2
    refine ⟨M, E, hM, hround, ?_⟩
    push_cast
    omega

end Stencil.Floating
