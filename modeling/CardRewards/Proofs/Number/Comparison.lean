import CardRewards.Number.Binary64

/-!
# Doubles beside zero

A comparison unpacks the bits of two doubles into numbers with a sign and a significand. A `NaN`
compares with nothing, so an amount may fail to be at most zero without being more than zero. Of
every other double one of the two holds: `not_le_zero_iff`.
-/

namespace CardRewards

namespace Binary64

open Float.Model (Format UnpackedFloat)
open Float.Model.UnpackedFloat

/-! ## Packing and unpacking -/

section

variable {spec : Format} {b : BitVec spec.numBits}

/-- Bits stand for no number only if the exponent is all ones and the fraction is not zero. -/
theorem of_unpack_eq_notANumber (h : unpack spec b = .notANumber) :
    unpackExponent b = -1#_ ∧ unpackMantissa b ≠ 0#_ := by
  unfold unpack at h
  dsimp only at h
  by_cases hexponent : unpackExponent b = -1#_
  · rw [if_pos hexponent] at h
    by_cases hmantissa : unpackMantissa b = 0#_
    · rw [if_pos hmantissa] at h
      cases h
    · exact ⟨hexponent, hmantissa⟩
  · -- under any other exponent the bits stand for zero or a number with a significand
    rw [if_neg hexponent] at h
    by_cases hsubnormal : unpackExponent b = 0#_
    · rw [if_pos hsubnormal] at h
      by_cases hzero : unpackMantissa b = 0#_
      · rw [dif_pos hzero] at h
        cases h
      · rw [dif_neg hzero] at h
        cases h
    · rw [if_neg hsubnormal] at h
      cases h

end

/-- A number is packed into bits that stand for a number. -/
theorem unpack_pack_ne_notANumber {u : UnpackedFloat} (h : u ≠ .notANumber) :
    unpack Format.binary64 (pack Format.binary64 u) ≠ .notANumber := by
  intro hnan
  obtain ⟨hexponent, hmantissa⟩ := of_unpack_eq_notANumber hnan
  revert hexponent hmantissa
  fun_cases pack Format.binary64 u with
  | case1 => exact absurd rfl h
  | case2 s => simp [packedInfinity]
  | case3 s => simp [packedZero]
  | case4 s m e hm biased hoverflow => simp [packedInfinity]
  | case5 s m e hm bits biased hfits hnormal =>
    -- the exponent of a finite number is below the one that is all ones
    intro hones
    have heq := congrArg BitVec.toNat hones
    have hbits : 2 ^ Format.binary64.exponentBits = 2048 := rfl
    simp at heq
    omega
  | case6 s m e hm bits biased hfits hnormal => simp

/-- The bits of a double that is no `NaN` stand for a number. -/
theorem unpack_bits_ne_notANumber {x : Binary64} (h : x.isNaN = false) :
    unpack Format.binary64 x.bits.toBitVec ≠ .notANumber := by
  intro hnan
  obtain ⟨hexponent, hmantissa⟩ := of_unpack_eq_notANumber hnan
  -- the exponent are the eleven bits above the fraction, and the fraction the lowest fifty-two
  have hones : x.bits.toNat / 2 ^ 52 % 2 ^ 11 = 2 ^ 11 - 1 := by
    have heq := congrArg BitVec.toNat hexponent
    simpa [unpackExponent, Nat.shiftRight_eq_div_pow] using heq
  have hfraction : x.bits.toNat % 2 ^ 52 ≠ 0 := by
    intro h0
    refine hmantissa (BitVec.eq_of_toNat_eq ?_)
    simpa [unpackMantissa] using h0
  have hle : ¬ infinityMagnitude < x.magnitude := by simpa [isNaN] using h
  unfold infinityMagnitude magnitude signBit leadingBit at hle
  omega

/-! ## Comparisons with zero -/

theorem isNaN_of_isFinite {x : Binary64} (h : x.isFinite = true) : x.isNaN = false := by
  have hlt : x.magnitude < infinityMagnitude := by simpa [isFinite] using h
  simpa [isNaN] using Nat.le_of_lt hlt

/-- What a double is compared as. -/
def unpacked (x : Binary64) : UnpackedFloat := x.toFloat.toModel.unpack

theorem unpacked_ne_notANumber {x : Binary64} (h : x.isNaN = false) : x.unpacked ≠ .notANumber :=
  unpack_pack_ne_notANumber (unpack_bits_ne_notANumber h)

theorem unpacked_zero : unpacked 0 = .zero .positive := rfl

theorem lt_iff {x y : Binary64} : x < y ↔ x.unpacked.lt y.unpacked = true := by
  show decide (x.unpacked.lt y.unpacked = true) = true ↔ _
  exact decide_eq_true_iff

theorem le_iff {x y : Binary64} : x ≤ y ↔ x.unpacked.le y.unpacked = true := by
  show decide (x.unpacked.le y.unpacked = true) = true ↔ _
  exact decide_eq_true_iff

/-- What is compared as a number is at most zero or more than zero, and not both. -/
theorem not_le_zero_iff_of_unpacked {x : Binary64} (h : x.unpacked ≠ .notANumber) :
    ¬ x ≤ 0 ↔ 0 < x := by
  rw [le_iff, lt_iff, unpacked_zero]
  cases hx : x.unpacked with
  | notANumber => exact absurd hx h
  | infinity s => cases s <;> decide
  | zero s => cases s <;> decide
  | finite s m e hm =>
    -- the sign alone decides how a number with a significand compares with zero
    cases s with
    | negative =>
      show ¬ true = true ↔ false = true
      decide
    | positive =>
      show ¬ false = true ↔ true = true
      decide

/-- A double that is no `NaN` is at most zero or more than zero, and not both. -/
theorem not_le_zero_iff {x : Binary64} (h : x.isNaN = false) : ¬ x ≤ 0 ↔ 0 < x :=
  not_le_zero_iff_of_unpacked (unpacked_ne_notANumber h)

/-- A `NaN` is not more than zero, so what is more is not at most zero either. -/
theorem not_le_zero_of_pos {x : Binary64} (h : 0 < x) : ¬ x ≤ 0 := by
  refine (not_le_zero_iff_of_unpacked fun hnan => ?_).mpr h
  rw [lt_iff, unpacked_zero, hnan] at h
  exact absurd h (by decide)

end Binary64

end CardRewards
