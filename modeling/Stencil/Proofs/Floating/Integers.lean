import Stencil.Proofs.Floating.Rounding

/-!
Integers as floating-point numbers. The number nearest to an integer has a place among all numbers, counted from
zero in both directions, and its order and its bits are read off this place: what compares two integers as
floating-point numbers compares their places.
-/

namespace Stencil.Floating

open Float.Model UnpackedFloat

theorem toNat_packComponents (s : Sign) (exponent : BitVec 11) (mantissa : BitVec 52) :
    (packComponents .binary64 s exponent mantissa).toNat =
      s.toBitVec.toNat * 2 ^ 63 + exponent.toNat * 2 ^ 52 + mantissa.toNat := by
  change (s.toBitVec ++ exponent ++ mantissa).toNat = _
  rw [BitVec.toNat_append, BitVec.toNat_append, ← Nat.shiftLeft_add_eq_or_of_lt exponent.isLt,
    ← Nat.shiftLeft_add_eq_or_of_lt mantissa.isLt, Nat.shiftLeft_eq, Nat.shiftLeft_eq]
  omega

theorem unpackSign_packComponents (s : Sign) (exponent : BitVec 11) (mantissa : BitVec 52) :
    unpackSign (packComponents .binary64 s exponent mantissa) = s.toBitVec := by
  apply BitVec.eq_of_toNat_eq
  have hexponent := exponent.isLt
  have hmantissa := mantissa.isLt
  have hsign := s.toBitVec.isLt
  unfold unpackSign
  rw [BitVec.toNat_cast, BitVec.extractLsb_toNat, toNat_packComponents, Nat.shiftRight_eq_div_pow]
  norm_num
  omega

theorem ofBitVec_toBitVec (s : Sign) : Sign.ofBitVec s.toBitVec = s := by
  cases s <;> rfl

/-- The leading digit that is left out where a number is packed. -/
theorem toNat_leading (fraction : BitVec 52) : (1#1 ++ fraction).toNat = 2 ^ 52 + fraction.toNat := by
  have hone : (1#1).toNat = 1 := rfl
  rw [BitVec.toNat_append, ← Nat.shiftLeft_add_eq_or_of_lt fraction.isLt, hone, Nat.shiftLeft_eq, Nat.one_mul]

/-- Numbers with the same parts are the same. -/
theorem finite_eq {s s' : Sign} {M M' : Nat} {E E' : Int} {hM : 0 < M} {hM' : 0 < M'} (hs : s = s') (hm : M = M')
    (he : E = E') : UnpackedFloat.finite s M E hM = .finite s' M' E' hM' := by
  subst hs hm he
  rfl

theorem unpack_normal {x : BitVec Format.binary64.numBits} (hnotAll : unpackExponent x ≠ -1#11)
    (hnotZero : unpackExponent x ≠ 0#11) :
    UnpackedFloat.unpack .binary64 x =
      .finite (.ofBitVec (unpackSign x)) (2 ^ 52 + (unpackMantissa x).toNat) ((unpackExponent x).toNat - 1075)
        (Nat.add_pos_left (Nat.two_pow_pos 52) _) := by
  unfold UnpackedFloat.unpack
  dsimp only
  rw [if_neg hnotAll, if_neg hnotZero]
  exact finite_eq rfl (toNat_leading (unpackMantissa x)) rfl

section Normal

variable {s : Sign} {M : Nat} {E : Int} {hM : 0 < M}

/-- A number with a significand of 53 digits whose power is in range is packed whole. -/
theorem pack_normal (hlow : 2 ^ 52 ≤ M) (hhigh : M < 2 ^ 53) (hE : -1074 ≤ E) (hE' : E ≤ 971) :
    UnpackedFloat.pack .binary64 (.finite s M E hM) =
      packComponents .binary64 s (BitVec.ofNat 11 (E + 1075).toNat) (BitVec.ofNat 52 M) := by
  have hlog : M.log2 = 52 := log2_eq_of_bounds hlow hhigh
  have hbiased : (E + (Format.binary64.exponentBias : Int) + (52 : Nat)).toNat = (E + 1075).toNat := by
    have hbias : Format.binary64.exponentBias = 1023 := rfl
    rw [hbias]
    omega
  unfold UnpackedFloat.pack
  dsimp only
  rw [hbiased, if_neg, if_pos]
  · rw [hlog]
    rfl
  · norm_num
    omega

theorem unpack_pack_normal (hlow : 2 ^ 52 ≤ M) (hhigh : M < 2 ^ 53) (hE : -1074 ≤ E) (hE' : E ≤ 971) :
    UnpackedFloat.unpack .binary64 (UnpackedFloat.pack .binary64 (.finite s M E hM)) = .finite s M E hM := by
  have hexponent : (BitVec.ofNat 11 (E + 1075).toNat).toNat = (E + 1075).toNat := by
    rw [BitVec.toNat_ofNat]
    omega
  have hnotAll : BitVec.ofNat 11 (E + 1075).toNat ≠ -1#11 := by
    intro h
    have := congrArg BitVec.toNat h
    rw [hexponent] at this
    have hall : (-1#11).toNat = 2047 := rfl
    omega
  have hnotZero : BitVec.ofNat 11 (E + 1075).toNat ≠ 0#11 := by
    intro h
    have := congrArg BitVec.toNat h
    rw [hexponent] at this
    have hnone : (0#11).toNat = 0 := rfl
    omega
  have hmantissa : 2 ^ 52 + (BitVec.ofNat 52 M).toNat = M := by
    rw [BitVec.toNat_ofNat]
    omega
  have hpacked := @unpackExponent_packComponents .binary64 s (BitVec.ofNat 11 (E + 1075).toNat) (BitVec.ofNat 52 M)
  rw [pack_normal hlow hhigh hE hE', unpack_normal (hpacked.trans_ne hnotAll) (hpacked.trans_ne hnotZero)]
  apply finite_eq
  · rw [unpackSign_packComponents, ofBitVec_toBitVec]
  · rw [unpackMantissa_packComponents]
    exact hmantissa
  · rw [hpacked]
    omega

end Normal

/-- A number that stands at a place among the floating-point numbers, counted from zero in both
directions: zero, or a number with a significand of 53 digits. -/
inductive StandsAt : UnpackedFloat → Int → Prop
  | zero : StandsAt (.zero .positive) 0
  | positive {M : Nat} {E : Int} {hM : 0 < M} (low : 2 ^ 52 ≤ M) (high : M < 2 ^ 53) (least : -1074 ≤ E)
      (most : E ≤ 971) : StandsAt (.finite .positive M E hM) ((E + 1074) * 2 ^ 52 + M)
  | negative {M : Nat} {E : Int} {hM : 0 < M} (low : 2 ^ 52 ≤ M) (high : M < 2 ^ 53) (least : -1074 ≤ E)
      (most : E ≤ 971) : StandsAt (.finite .negative M E hM) (-((E + 1074) * 2 ^ 52 + M))

/-- The place of the number nearest to an integer. -/
def signedPlace (n : Int) : Int := if n < 0 then -(place n.natAbs : Int) else place n.natAbs

theorem standsAt_ofInt64 (n : Int64) :
    StandsAt (UnpackedFloat.ofInt64 .binary64 n) (signedPlace n.toInt) := by
  have hleast : -2 ^ 63 ≤ n.toInt := n.le_toInt
  have hmost : n.toInt < 2 ^ 63 := n.toInt_lt
  have hlog (h : n.toInt ≠ 0) : n.toInt.natAbs.log2 < 64 :=
    (Nat.log2_lt (by omega)).2 (by omega)
  unfold UnpackedFloat.ofInt64 UnpackedFloat.ofInt UnpackedFloat.normalize signedPlace
  rcases lt_trichotomy n.toInt 0 with hneg | hzero | hpos
  · have hm : (-n.toInt).toNat = n.toInt.natAbs := by omega
    obtain ⟨M, E, hM, hround, low, high, hE, hE', hplace⟩ :=
      round_exact .negative (show 0 < n.toInt.natAbs by omega)
    have := hlog hneg.ne
    rw [compare_lt_iff_lt.2 hneg, if_pos hneg, hplace]
    dsimp only
    rw [hm, hround]
    exact .negative low high (by omega) (by omega)
  · rw [hzero]
    exact .zero
  · have hm : n.toInt.toNat = n.toInt.natAbs := by omega
    obtain ⟨M, E, hM, hround, low, high, hE, hE', hplace⟩ :=
      round_exact .positive (show 0 < n.toInt.natAbs by omega)
    have := hlog hpos.ne'
    rw [compare_gt_iff_gt.2 hpos, if_neg hpos.not_gt, hplace]
    dsimp only
    rw [hm, hround]
    exact .positive low high (by omega) (by omega)

namespace StandsAt

variable {f g : UnpackedFloat} {p q : Int}

theorem unpack_pack (h : StandsAt f p) :
    UnpackedFloat.unpack .binary64 (UnpackedFloat.pack .binary64 f) = f := by
  cases h with
  | zero => rfl
  | positive low high least most => exact unpack_pack_normal low high least most
  | negative low high least most => exact unpack_pack_normal low high least most

theorem compare_then {E E' : Int} {M M' : Nat} (low : 2 ^ 52 ≤ M) (high : M < 2 ^ 53)
    (low' : 2 ^ 52 ≤ M') (high' : M' < 2 ^ 53) :
    (Ord.compare E E').then (Ord.compare M M') =
      Ord.compare ((E + 1074) * 2 ^ 52 + M) ((E' + 1074) * 2 ^ 52 + M') := by
  rcases lt_trichotomy E E' with hlt | rfl | hgt
  · rw [compare_lt_iff_lt.2 hlt, Eq.comm]
    exact compare_lt_iff_lt.2 (by omega)
  · rw [compare_eq_iff_eq.2 rfl]
    rcases lt_trichotomy M M' with hlt | rfl | hgt
    · rw [compare_lt_iff_lt.2 hlt, Eq.comm]
      exact compare_lt_iff_lt.2 (by omega)
    · rw [compare_eq_iff_eq.2 rfl, compare_eq_iff_eq.2 rfl]
      rfl
    · rw [compare_gt_iff_gt.2 hgt, Eq.comm]
      exact compare_gt_iff_gt.2 (by omega)
  · rw [compare_gt_iff_gt.2 hgt, Eq.comm]
    exact compare_gt_iff_gt.2 (by omega)

theorem swap_compare (x y : Int) : (Ord.compare x y).swap = Ord.compare (-x) (-y) := by
  rcases lt_trichotomy x y with hlt | rfl | hgt
  · rw [compare_lt_iff_lt.2 hlt, compare_gt_iff_gt.2 (neg_lt_neg hlt)]
    rfl
  · rw [compare_eq_iff_eq.2 rfl, compare_eq_iff_eq.2 rfl]
    rfl
  · rw [compare_gt_iff_gt.2 hgt, compare_lt_iff_lt.2 (neg_lt_neg hgt)]
    rfl

/-- Numbers are ordered as their places. -/
theorem compare_eq (h : StandsAt f p) (h' : StandsAt g q) : f.compare g = some (Ord.compare p q) := by
  cases h with
  | zero =>
      cases h' with
      | zero => rfl
      | positive => exact congrArg some (compare_lt_iff_lt.2 (by omega)).symm
      | negative => exact congrArg some (compare_gt_iff_gt.2 (by omega)).symm
  | positive low high =>
      cases h' with
      | zero => exact congrArg some (compare_gt_iff_gt.2 (by omega)).symm
      | positive low' high' => exact congrArg some (compare_then low high low' high')
      | negative => exact congrArg some (compare_gt_iff_gt.2 (by omega)).symm
  | negative low high =>
      cases h' with
      | zero => exact congrArg some (compare_lt_iff_lt.2 (by omega)).symm
      | positive => exact congrArg some (compare_lt_iff_lt.2 (by omega)).symm
      | negative low' high' =>
          rw [← swap_compare, ← compare_then low high low' high']
          rfl

/-- Zero is far from all other places that are taken. -/
theorem bounds (h : StandsAt f p) :
    -(2047 * 2 ^ 52) < p ∧ p < 2047 * 2 ^ 52 ∧ (p = 0 ∨ 2 ^ 52 ≤ p ∨ p ≤ -2 ^ 52) := by
  cases h with
  | zero => omega
  | positive => omega
  | negative => omega

theorem toNat_pack (h : StandsAt f p) :
    (UnpackedFloat.pack .binary64 f).toNat = (if p < 0 then 2 ^ 63 else 0) + p.natAbs := by
  have hpacked (s : Sign) {M : Nat} {E : Int} (low : 2 ^ 52 ≤ M) (high : M < 2 ^ 53) (least : -1074 ≤ E)
      (most : E ≤ 971) :
      (packComponents .binary64 s (BitVec.ofNat 11 (E + 1075).toNat) (BitVec.ofNat 52 M)).toNat =
        s.toBitVec.toNat * 2 ^ 63 + ((E + 1074) * 2 ^ 52 + M).toNat := by
    rw [toNat_packComponents, BitVec.toNat_ofNat, BitVec.toNat_ofNat]
    omega
  cases h with
  | zero => rfl
  | positive low high least most =>
      rw [pack_normal low high least most, hpacked _ low high least most, if_neg (by omega)]
      have hsign : Sign.positive.toBitVec.toNat = 0 := rfl
      omega
  | negative low high least most =>
      rw [pack_normal low high least most, hpacked _ low high least most, if_pos (by omega)]
      have hsign : Sign.negative.toBitVec.toNat = 1 := rfl
      omega

end StandsAt

theorem unpack_ofInt64 (n : Int64) :
    (ofInt64 n).number.toModel.unpack = UnpackedFloat.ofInt64 .binary64 n :=
  (standsAt_ofInt64 n).unpack_pack

theorem compare_ofInt64 (a b : Int64) :
    (ofInt64 a).number.toModel.unpack.compare (ofInt64 b).number.toModel.unpack =
      some (Ord.compare (signedPlace a.toInt) (signedPlace b.toInt)) := by
  rw [unpack_ofInt64, unpack_ofInt64]
  exact (standsAt_ofInt64 a).compare_eq (standsAt_ofInt64 b)

theorem lt_ofInt64 (a b : Int64) :
    (ofInt64 a).number < (ofInt64 b).number ↔ signedPlace a.toInt < signedPlace b.toInt := by
  have hcompare := compare_ofInt64 a b
  change decide (((ofInt64 a).number.toModel.unpack.compare _ == some .lt) = true) = true ↔ _
  rw [hcompare]
  simp [compare_lt_iff_lt]

theorem beq_ofInt64 (a b : Int64) :
    ((ofInt64 a).number == (ofInt64 b).number) = true ↔ signedPlace a.toInt = signedPlace b.toInt := by
  have hcompare := compare_ofInt64 a b
  change ((ofInt64 a).number.toModel.unpack.compare _ == some .eq) = true ↔ _
  rw [hcompare]
  simp

theorem toNat_toBits_ofInt64 (n : Int64) :
    (ofInt64 n).number.toBits.toNat =
      (if signedPlace n.toInt < 0 then 2 ^ 63 else 0) + (signedPlace n.toInt).natAbs :=
  (standsAt_ofInt64 n).toNat_pack

/-- The ordered bits count the places from the middle on, where both zeros stand. -/
theorem toNat_orderedBits_ofInt64 (n : Int64) :
    ((ofInt64 n).orderedBits.toNat : Int) =
      2 ^ 63 + signedPlace n.toInt - (if signedPlace n.toInt < 0 then 1 else 0) := by
  have hbounds := (standsAt_ofInt64 n).bounds
  have hbits := toNat_toBits_ofInt64 n
  have htop : (0x8000000000000000 : UInt64).toNat = 2 ^ 63 := rfl
  have hnumber : ((ofInt64 n).isUndefined && (ofInt64 n).negative) = false := Bool.and_false _
  unfold orderedBits
  rw [hnumber]
  simp only [Bool.false_eq_true, if_false]
  by_cases hneg : signedPlace n.toInt < 0
  · rw [if_pos hneg] at hbits ⊢
    have hsize : UInt64.size = 2 ^ 64 := rfl
    rw [if_pos (UInt64.le_iff_toNat_le.2 (by omega)), UInt64.toNat_not]
    omega
  · rw [if_neg hneg] at hbits ⊢
    have hlow : (ofInt64 n).number.toBits.toNat < 2 ^ 63 := by omega
    have hmod := Nat.xor_mod_two_pow (a := (ofInt64 n).number.toBits.toNat) (b := 2 ^ 63) (n := 63)
    have hdiv := Nat.xor_div_two_pow (a := (ofInt64 n).number.toBits.toNat) (b := 2 ^ 63) (n := 63)
    rw [Nat.mod_self, Nat.xor_zero] at hmod
    rw [Nat.div_self (Nat.two_pow_pos 63), Nat.div_eq_of_lt hlow, Nat.zero_xor] at hdiv
    rw [if_neg (fun h => absurd (UInt64.le_iff_toNat_le.1 h) (by omega)), UInt64.toNat_xor, htop]
    omega

theorem sub_le_two_iff (x y : UInt64) (h : x.toNat < y.toNat + (2 ^ 64 - 2)) (h' : y.toNat < x.toNat + (2 ^ 64 - 2)) :
    (x - y ≤ 2 ∨ y - x ≤ 2) ↔ x.toNat ≤ y.toNat + 2 ∧ y.toNat ≤ x.toNat + 2 := by
  have htwo : (2 : UInt64).toNat = 2 := rfl
  rw [UInt64.le_iff_toNat_le, UInt64.le_iff_toNat_le, UInt64.toNat_sub, UInt64.toNat_sub, htwo]
  have hx := x.toNat_lt
  have hy := y.toNat_lt
  omega

/-- Two integers count as nearly equal when the numbers nearest to them are at most two places apart. -/
theorem nearlyEqual_ofInt64 (a b : Int64) :
    (ofInt64 a).nearlyEqual (ofInt64 b) = true ↔ |signedPlace a.toInt - signedPlace b.toInt| ≤ 2 := by
  have ha := (standsAt_ofInt64 a).bounds
  have hb := (standsAt_ofInt64 b).bounds
  have hbits := toNat_orderedBits_ofInt64 a
  have hbits' := toNat_orderedBits_ofInt64 b
  unfold nearlyEqual
  rw [Bool.or_eq_true, Bool.or_eq_true, beq_ofInt64, decide_eq_true_iff, decide_eq_true_iff, or_assoc,
    sub_le_two_iff _ _ (by omega) (by omega), abs_le]
  omega

theorem signedPlace_mono {a b : Int} (h : a ≤ b) : signedPlace a ≤ signedPlace b := by
  unfold signedPlace
  split
  · split
    · have hplace : place b.natAbs ≤ place a.natAbs := place_mono (by omega)
      omega
    · omega
  · have hplace : place a.natAbs ≤ place b.natAbs := place_mono (by omega)
    rw [if_neg (by omega)]
    omega

/-- Integers up to `2 ^ 51` in size are four places apart, and more for each one between them. -/
theorem signedPlace_gap {a b : Int} (h : a ≤ b) (ha : a.natAbs ≤ 2 ^ 51) (hb : b.natAbs ≤ 2 ^ 51) :
    signedPlace a + 4 * (b - a) ≤ signedPlace b := by
  have hzero : place 0 = 0 := rfl
  unfold signedPlace
  split
  · split
    · have hplace := place_add_four_mul_le (show b.natAbs ≤ a.natAbs by omega) ha
      omega
    · have hplace := place_add_four_mul_le (Nat.zero_le a.natAbs) ha
      have hplace' := place_add_four_mul_le (Nat.zero_le b.natAbs) hb
      omega
  · have hplace := place_add_four_mul_le (show a.natAbs ≤ b.natAbs by omega) hb
    rw [if_neg (by omega)]
    omega

end Stencil.Floating
