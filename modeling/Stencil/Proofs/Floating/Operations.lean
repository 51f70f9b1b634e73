import Stencil.Proofs.Floating.Integers

/-!
Operations on integers as floating-point numbers. The sum, the difference and the product of two finite numbers
are finite before they are packed, and so is the quotient unless the divisor is zero; packing makes an infinity of
what is out of range. So none of these results is undefined.
-/

namespace Stencil.Floating

open Float.Model UnpackedFloat

section Finite

variable {f g : UnpackedFloat}

theorem isFinite_significand (s : Sign) (m : Nat) (e : Int) :
    (if h : m = 0 then UnpackedFloat.zero s else .finite s m e (Nat.pos_of_ne_zero h)).isFinite = true := by
  by_cases hzero : m = 0
  · rw [dif_pos hzero]
    rfl
  · rw [dif_neg hzero]
    rfl

theorem isFinite_roundWithAccuracy (s : Sign) (m : Nat) (e : Int) (accuracy : Accuracy) :
    (roundWithAccuracy .binary64 s m e accuracy).isFinite = true := isFinite_significand ..

theorem isFinite_normalize (n e : Int) (s : Sign) :
    (UnpackedFloat.normalize .binary64 n e s).isFinite = true := by
  unfold UnpackedFloat.normalize
  split
  · exact isFinite_roundWithAccuracy ..
  · rfl
  · exact isFinite_roundWithAccuracy ..

/-- An operation has finite results on finite numbers if it has them on zeros and on numbers that are not
zero. -/
theorem isFinite_of_cases {operation : UnpackedFloat → UnpackedFloat → UnpackedFloat}
    (hzeros : ∀ s t, (operation (.zero s) (.zero t)).isFinite = true)
    (hzero : ∀ s t m e hm, (operation (.zero s) (.finite t m e hm)).isFinite = true ∧
      (operation (.finite t m e hm) (.zero s)).isFinite = true)
    (hnumbers : ∀ s m e hm t m' e' hm',
      (operation (.finite s m e hm) (.finite t m' e' hm')).isFinite = true)
    (hf : f.isFinite = true) (hg : g.isFinite = true) : (operation f g).isFinite = true := by
  cases f with
  | zero s =>
      cases g with
      | zero t => exact hzeros s t
      | finite t m e hm => exact (hzero s t m e hm).1
      | _ => cases hg
  | finite s m e hm =>
      cases g with
      | zero t => exact (hzero t s m e hm).2
      | finite t m' e' hm' => exact hnumbers s m e hm t m' e' hm'
      | _ => cases hg
  | _ => cases hf

theorem isFinite_add (hf : f.isFinite = true) (hg : g.isFinite = true) :
    (UnpackedFloat.add .binary64 f g).isFinite = true := by
  apply isFinite_of_cases _ _ _ hf hg
  · intro s t
    cases s <;> cases t <;> rfl
  · intro s t m e hm
    exact ⟨rfl, rfl⟩
  · intro s m e hm t m' e' hm'
    apply isFinite_normalize

theorem isFinite_sub (hf : f.isFinite = true) (hg : g.isFinite = true) :
    (UnpackedFloat.sub .binary64 f g).isFinite = true := by
  apply isFinite_of_cases _ _ _ hf hg
  · intro s t
    cases s <;> cases t <;> rfl
  · intro s t m e hm
    exact ⟨rfl, rfl⟩
  · intro s m e hm t m' e' hm'
    apply isFinite_normalize

theorem isFinite_mul (hf : f.isFinite = true) (hg : g.isFinite = true) :
    (UnpackedFloat.mul .binary64 f g).isFinite = true := by
  apply isFinite_of_cases _ _ _ hf hg
  · intro s t
    rfl
  · intro s t m e hm
    exact ⟨rfl, rfl⟩
  · intro s m e hm t m' e' hm'
    apply isFinite_roundWithAccuracy

theorem isFinite_div (hf : f.isFinite = true) (hg : g.isFinite = true) (hnonzero : ∀ s, g ≠ .zero s) :
    (UnpackedFloat.div .binary64 f g).isFinite = true := by
  cases g with
  | zero s => exact absurd rfl (hnonzero s)
  | finite t m e hm =>
      cases f with
      | zero s => rfl
      | finite s m' e' hm' => apply isFinite_roundWithAccuracy
      | _ => cases hf
  | _ => cases hg

theorem isNaN_unpack {x : BitVec Format.binary64.numBits}
    (h : unpackExponent x ≠ -1#11 ∨ unpackMantissa x = 0#52) :
    (UnpackedFloat.unpack .binary64 x).isNaN = false := by
  unfold UnpackedFloat.unpack
  dsimp only
  by_cases hall : unpackExponent x = -1#11
  · have hmantissa := h.resolve_left (not_not.2 hall)
    rw [if_pos hall, if_pos hmantissa]
    rfl
  · rw [if_neg hall]
    by_cases hzero : unpackExponent x = 0#11
    · rw [if_pos hzero]
      by_cases hmantissa : unpackMantissa x = 0#52
      · rw [dif_pos hmantissa]
        rfl
      · rw [dif_neg hmantissa]
        rfl
    · rw [if_neg hzero]
      rfl

theorem isNaN_unpack_packComponents (s : Sign) {exponent : BitVec 11} {mantissa : BitVec 52}
    (h : exponent ≠ -1#11 ∨ mantissa = 0#52) :
    (UnpackedFloat.unpack .binary64 (packComponents .binary64 s exponent mantissa)).isNaN = false := by
  apply isNaN_unpack
  rw [unpackExponent_packComponents, unpackMantissa_packComponents]
  exact h

/-- What is packed of a finite number is unpacked as a finite number or an infinity. -/
theorem isNaN_unpack_pack (hf : f.isFinite = true) :
    (UnpackedFloat.unpack .binary64 (UnpackedFloat.pack .binary64 f)).isNaN = false := by
  cases f with
  | finite s m e hm =>
      unfold UnpackedFloat.pack
      dsimp only
      generalize (e + (Format.binary64.exponentBias : Int) + _).toNat = biased
      split
      · exact isNaN_unpack_packComponents s (.inr rfl)
      next hrange =>
        split
        · apply isNaN_unpack_packComponents
          left
          intro hall
          have hbits : biased % 2 ^ 11 = 2 ^ 11 - 1 := (BitVec.toNat_ofNat biased 11).symm.trans (congrArg _ hall)
          have hlow : ¬ 2 ^ 11 ≤ biased + 1 := hrange
          omega
        · exact isNaN_unpack_packComponents s (.inl (by decide))
  | zero s => exact isNaN_unpack_packComponents s (.inr rfl)
  | _ => cases hf

end Finite

section Operands

variable (a b : Int64)

theorem StandsAt.isFinite {f : UnpackedFloat} {p : Int} (h : StandsAt f p) : f.isFinite = true := by
  cases h <;> rfl

theorem StandsAt.ne_zero {f : UnpackedFloat} {p : Int} (h : StandsAt f p) (hp : p ≠ 0) (s : Sign) :
    f ≠ .zero s := by
  rintro rfl
  cases h
  exact hp rfl

theorem isFinite_ofInt64 : (ofInt64 a).number.toModel.unpack.isFinite = true := by
  rw [unpack_ofInt64]
  exact (standsAt_ofInt64 a).isFinite

theorem isUndefined_ofInt64 : (ofInt64 a).isUndefined = false :=
  isNaN_unpack_pack (standsAt_ofInt64 a).isFinite

theorem isNaN_add : ((ofInt64 a).number + (ofInt64 b).number).isNaN = false :=
  isNaN_unpack_pack (isFinite_add (isFinite_ofInt64 a) (isFinite_ofInt64 b))

theorem isNaN_sub : ((ofInt64 a).number - (ofInt64 b).number).isNaN = false :=
  isNaN_unpack_pack (isFinite_sub (isFinite_ofInt64 a) (isFinite_ofInt64 b))

theorem isNaN_mul : ((ofInt64 a).number * (ofInt64 b).number).isNaN = false :=
  isNaN_unpack_pack (isFinite_mul (isFinite_ofInt64 a) (isFinite_ofInt64 b))

theorem signedPlace_eq_zero_iff {n : Int} : signedPlace n = 0 ↔ n = 0 := by
  constructor
  · intro h
    by_contra hn
    have hplace := place_of_pos (Int.natAbs_pos.2 hn)
    unfold signedPlace at h
    split at h <;> omega
  · rintro rfl
    rfl

theorem toInt_eq_zero_iff : b.toInt = 0 ↔ b = 0 := Int64.toInt_inj (y := 0)

/-- Zero alone is zero as a floating-point number. -/
theorem beq_zero_iff : ((ofInt64 b).number == 0) = true ↔ b = 0 := by
  have hzero : (0 : Float) = (ofInt64 0).number := rfl
  have hplace : signedPlace (0 : Int64).toInt = 0 := rfl
  rw [hzero, beq_ofInt64, hplace, signedPlace_eq_zero_iff, toInt_eq_zero_iff]

theorem isUndefined_div (h : b ≠ 0) : ((ofInt64 a).div (ofInt64 b)).isUndefined = false := by
  have hplace : signedPlace b.toInt ≠ 0 := by
    rw [Ne, signedPlace_eq_zero_iff, toInt_eq_zero_iff]
    exact h
  have hnonzero (s : Sign) : (ofInt64 b).number.toModel.unpack ≠ .zero s := by
    rw [unpack_ofInt64]
    exact (standsAt_ofInt64 b).ne_zero hplace s
  have hquotient : ((ofInt64 a).number / (ofInt64 b).number).isNaN = false :=
    isNaN_unpack_pack (isFinite_div (isFinite_ofInt64 a) (isFinite_ofInt64 b) hnonzero)
  unfold div
  rw [isUndefined_ofInt64, isUndefined_ofInt64]
  exact hquotient

end Operands

end Stencil.Floating
