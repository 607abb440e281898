import CardRewards.Amount
import CardRewards.Proofs.Number.Sign

/-!
# Whole numbers as doubles

A whole number of a few digits is far from the largest double, so as a double it is finite. What
carries this through rounding, packing and multiplying is a bound on the exponent of a significand
of fifty-three bits (`ExponentLe`).
-/

namespace CardRewards

namespace Binary64

open Float.Model (Format UnpackedFloat totalExponent)
open Float.Model.UnpackedFloat

/-- A finite number whose significand has at most fifty-three bits, with a bound on its exponent. -/
def ExponentLe (k : Int) : UnpackedFloat → Prop
  | .zero _ => True
  | .finite _ m e _ => m < 2 ^ 53 ∧ e ≤ k
  | _ => False

variable {k : Int} {u v : UnpackedFloat} {m : Nat} {e : Int}

theorem ExponentLe.isFinite (h : ExponentLe k u) : u.isFinite = true := by
  cases u with
  | zero | finite => rfl
  | notANumber | infinity => exact h.elim

/-! ## Rounding -/

theorem roundedMantissa_le (em : ExtendedMantissa) : em.roundedMantissa ≤ em.mantissa + 1 := by
  unfold ExtendedMantissa.roundedMantissa
  cases em.accuracy with
  | exact => exact Nat.le_succ _
  | inexact order =>
    cases order with
    | lt => exact Nat.le_succ _
    | eq =>
      show em.mantissa + em.mantissa % 2 ≤ _
      omega
    | gt => exact le_rfl

/-- What is shifted to the exponent of a double has fifty-three bits, and an exponent that is as
high as that of the number asks for. -/
theorem shiftToTargetExponent_le (m : Nat) (e : Int) (accuracy : Accuracy) :
    let shifted := shiftToTargetExponent Format.binary64 m e accuracy
    shifted.1.mantissa < 2 ^ 53 ∧
      shifted.2 = max e (max ((m.log2 : Int) + 1 + e - 53) (-1074)) := by
  have htarget : Format.binary64.targetExponent (totalExponent m e) =
      max ((m.log2 : Int) + 1 + e - 53) (-1074) := rfl
  simp only [shiftToTargetExponent, shiftToExponent, htarget]
  refine ⟨?_, by omega⟩
  rw [mantissa_shiftRight, mantissa_ofMantissaAndAccuracy,
    Nat.div_lt_iff_lt_mul (Nat.two_pow_pos _), ← pow_add]
  have hhigh : m < 2 ^ (m.log2 + 1) := Nat.lt_log2_self
  refine lt_of_lt_of_le hhigh (Nat.pow_le_pow_right (by omega) ?_)
  omega

theorem log2_le_of_le {n b : Nat} (h : n ≤ 2 ^ b) : n.log2 ≤ b := by
  rcases Nat.eq_zero_or_pos n with rfl | hpos
  · exact Nat.zero_le b
  · refine Nat.le_of_lt_succ ((Nat.log2_lt (Nat.ne_of_gt hpos)).mpr ?_)
    exact h.trans_lt (Nat.pow_lt_pow_right (by omega) (Nat.lt_succ_self b))

theorem log2_shiftLeft_le (m n : Nat) : (m <<< n).log2 ≤ m.log2 + n := by
  rcases Nat.eq_zero_or_pos m with rfl | hpos
  · simp
  · rw [Nat.shiftLeft_eq]
    refine Nat.le_of_lt_succ
      ((Nat.log2_lt (Nat.ne_of_gt (Nat.mul_pos hpos (Nat.two_pow_pos n)))).mpr ?_)
    rw [Nat.succ_eq_add_one, Nat.add_right_comm, pow_add]
    exact Nat.mul_lt_mul_of_pos_right Nat.lt_log2_self (Nat.two_pow_pos n)

/-- Rounding raises the exponent by no more than one above the place of the leading bit. -/
theorem exponentLe_roundWithAccuracy (s : Sign) (h : (m.log2 : Int) + 1 + e ≤ k)
    (hk : -1074 ≤ k) (accuracy : Accuracy) :
    ExponentLe (k + 1) (roundWithAccuracy Format.binary64 s m e accuracy) := by
  obtain ⟨hlow, hfirst⟩ := shiftToTargetExponent_le m e accuracy
  unfold roundWithAccuracy
  generalize shiftToTargetExponent Format.binary64 m e accuracy = shifted at hlow hfirst ⊢
  have hrounded : shifted.1.roundedMantissa.log2 ≤ 53 :=
    log2_le_of_le ((roundedMantissa_le _).trans hlow)
  obtain ⟨hlast, hsecond⟩ := shiftToTargetExponent_le shifted.1.roundedMantissa shifted.2 .exact
  dsimp only at hlast hsecond ⊢
  split
  next => trivial
  next => exact ⟨hlast, by omega⟩

theorem exponentLe_round (s : Sign) (h : (m.log2 : Int) + 1 + e ≤ k) (hk : -1074 ≤ k) :
    ExponentLe (k + 1) (UnpackedFloat.round Format.binary64 s m e) := by
  unfold UnpackedFloat.round
  generalize Format.binary64.targetExponent (totalExponent m e) = target
  refine exponentLe_roundWithAccuracy s ?_ hk .exact
  -- what the exponent is lowered by is added to the significand
  show ((m <<< (e - target).toNat).log2 : Int) + 1 + (e - (e - target).toNat) ≤ k
  have hshift := log2_shiftLeft_le m (e - target).toNat
  omega

theorem exponentLe_normalize {n : Int} (h : (n.natAbs.log2 : Int) + 1 + e ≤ k) (hk : -1074 ≤ k)
    (zeroSign : Sign) :
    ExponentLe (k + 1) (UnpackedFloat.normalize Format.binary64 n e zeroSign) := by
  unfold UnpackedFloat.normalize
  split
  next hneg =>
    rw [compare_lt_iff_lt] at hneg
    refine exponentLe_round .negative ?_ hk
    rwa [show (-n).toNat = n.natAbs by omega]
  next => trivial
  next hpos =>
    rw [compare_gt_iff_gt] at hpos
    refine exponentLe_round .positive ?_ hk
    rwa [show n.toNat = n.natAbs by omega]

/-! ## Packing -/

theorem exponentLe_unpack {b : BitVec Format.binary64.numBits} (hk : -1074 ≤ k)
    (hfinite : (unpackExponent b).toNat < 2047)
    (hle : ((unpackExponent b).toNat : Int) - 1075 ≤ k) :
    ExponentLe k (unpack Format.binary64 b) := by
  have hones : unpackExponent b ≠ -1#_ := by
    intro hones
    rw [hones] at hfinite
    exact absurd hfinite (by decide)
  have hbias : (Format.binary64.exponentBias : Int) = 1023 := rfl
  unfold unpack
  dsimp only
  rw [if_neg hones]
  split
  next hzero =>
    split
    next => trivial
    next =>
      refine ⟨(BitVec.isLt _).trans (by decide), ?_⟩
      rw [hzero, hbias]
      show ((0 : Nat) : Int) - (1023 + 52) + 1 ≤ k
      omega
  next =>
    refine ⟨BitVec.isLt _, ?_⟩
    rw [hbias]
    show ((unpackExponent b).toNat : Int) - (1023 + 52) ≤ k
    omega

theorem exponentLe_unpack_pack (h : ExponentLe k u) (hlow : -1074 ≤ k) (hhigh : k ≤ 971) :
    ExponentLe k (unpack Format.binary64 (pack Format.binary64 u)) := by
  cases u with
  | notANumber | infinity => exact h.elim
  | zero s =>
    show ExponentLe k (unpack Format.binary64 (packedZero Format.binary64 s))
    rw [unpack_packedZero]
    trivial
  | finite s m e hm =>
    have hle : e ≤ k := h.2
    have hbias : (Format.binary64.exponentBias : Int) = 1023 := rfl
    have hpow : 2 ^ Format.binary64.exponentBits = 2048 := rfl
    unfold pack
    dsimp only
    rw [hbias, hpow]
    split
    next => omega
    next =>
      split
      next =>
        refine exponentLe_unpack hlow ?_ ?_
        · rw [unpackExponent_packComponents, BitVec.toNat_ofNat, hpow]
          omega
        · rw [unpackExponent_packComponents, BitVec.toNat_ofNat, hpow]
          omega
      next =>
        refine exponentLe_unpack hlow ?_ ?_
        · rw [unpackExponent_packComponents]
          decide
        · rw [unpackExponent_packComponents]
          show ((0 : Nat) : Int) - 1075 ≤ k
          omega

/-! ## Products -/

theorem exponentLe_mul {k' : Int} (hu : ExponentLe k u) (hv : ExponentLe k' v)
    (hlow : -1074 ≤ k + k' + 106) :
    ExponentLe (k + k' + 107) (UnpackedFloat.mul Format.binary64 u v) := by
  cases u with
  | notANumber | infinity => exact hu.elim
  | zero =>
    cases v with
    | notANumber | infinity => exact hv.elim
    | zero | finite => trivial
  | finite s m e hm =>
    cases v with
    | notANumber | infinity => exact hv.elim
    | zero => trivial
    | finite s' m' e' hm' =>
      obtain ⟨hm53, he⟩ := hu
      obtain ⟨hm53', he'⟩ := hv
      have hlt : m * m' < 2 ^ 106 := by
        rw [show 106 = 53 + 53 from rfl, pow_add]
        exact Nat.mul_lt_mul'' hm53 hm53'
      have hlog : (m * m').log2 < 106 :=
        (Nat.log2_lt (Nat.ne_of_gt (Nat.mul_pos hm hm'))).mpr hlt
      have hle : ((m * m').log2 : Int) + 1 + (e + e') ≤ k + k' + 106 := by omega
      rw [show k + k' + 107 = k + k' + 106 + 1 by omega]
      exact exponentLe_roundWithAccuracy _ hle hlow .exact

/-! ## Whole numbers -/

theorem unpack_one : (1.0 : Float).toModel.unpack = .finite .positive (2 ^ 52) (-52) (by decide) :=
  rfl

/-- A whole number becomes a double and is then multiplied by one. -/
theorem unpack_ofNat {n : Nat} (h : n < 2 ^ 53) :
    (Float.ofNat n).toModel.unpack =
      unpack Format.binary64 (pack Format.binary64 (UnpackedFloat.mul Format.binary64
        (unpack Format.binary64 (pack Format.binary64 (UnpackedFloat.ofNat Format.binary64 n)))
        (1.0 : Float).toModel.unpack)) := by
  have hsmall : n < 2 ^ 53 ∧ 0 ≤ 22 := ⟨h, by decide⟩
  have hcut : n.toUInt64.toNat = n := UInt64.toNat_ofNat_of_lt (h.trans (by decide))
  have heq : Float.ofNat n = n.toUInt64.toFloat * 1.0 := by
    show Float.ofScientific n false 0 = _
    unfold Float.ofScientific
    rw [dif_pos hsmall]
    rfl
  rw [heq]
  conv_rhs => rw [← hcut]
  rfl

theorem exponentLe_unpack_ofNat {n : Nat} (h : n < 2 ^ 53) :
    ExponentLe 110 (Float.ofNat n).toModel.unpack := by
  have hlog : n.log2 ≤ 53 := log2_le_of_le h.le
  have hplace : ((n : Int).natAbs.log2 : Int) + 1 + 0 ≤ 54 := by
    rw [Int.natAbs_natCast]
    omega
  have hwhole : ExponentLe 55 (UnpackedFloat.ofNat Format.binary64 n) :=
    exponentLe_normalize hplace (by omega) .positive
  have hone : ExponentLe (-52) (1.0 : Float).toModel.unpack := by
    rw [unpack_one]
    exact ⟨by decide, le_rfl⟩
  rw [unpack_ofNat h]
  have hpacked := exponentLe_unpack_pack hwhole (by omega) (by omega)
  exact exponentLe_unpack_pack (exponentLe_mul hpacked hone (by omega)) (by omega) (by omega)

theorem onSide_unpack_ofNat {n : Nat} (h : n < 2 ^ 53) :
    OnSide .positive (Float.ofNat n).toModel.unpack := by
  have hwhole : OnSide .positive (UnpackedFloat.ofNat Format.binary64 n) :=
    onSide_normalize _ .positive (Int.natCast_nonneg n) 0 .positive
  have hone : OnSide .positive (1.0 : Float).toModel.unpack := by
    rw [unpack_one]
    rfl
  rw [unpack_ofNat h]
  refine onSide_unpack_pack (onSide_mul _ (onSide_unpack_pack hwhole) hone ?_)
  rw [unpack_one]
  cases unpack Format.binary64 (pack Format.binary64 (UnpackedFloat.ofNat Format.binary64 n)) <;>
    exact id

theorem unpacked_ofNat {n : Nat} (h : n < 2 ^ 53) :
    (ofNat n).unpacked = (Float.ofNat n).toModel.unpack := by
  refine unpacked_ofFloat (Bool.eq_false_of_not_eq_true fun hnan => ?_)
  exact (onSide_unpack_ofNat h).ne_notANumber (isNaN_iff.mp hnan)

/-- A weight is below two to the thirty-two. -/
theorem toNat_lt_two_pow (n : UInt32) : n.toNat < 2 ^ 53 := n.toNat_lt.trans (by decide)

/-- The amount of so many units is finite. -/
theorem isFinite_unpacked_ofWeight (n : UInt32) :
    (Amount.ofWeight n : Binary64).unpacked.isFinite = true := by
  show (ofNat n.toNat).unpacked.isFinite = true
  rw [unpacked_ofNat (toNat_lt_two_pow n)]
  exact (exponentLe_unpack_ofNat (toNat_lt_two_pow n)).isFinite

theorem zero_le_ofWeight (n : UInt32) : 0 ≤ (Amount.ofWeight n : Binary64) := by
  rw [zero_le_iff_onSide]
  show OnSide .positive (ofNat n.toNat).unpacked
  rw [unpacked_ofNat (toNat_lt_two_pow n)]
  exact onSide_unpack_ofNat (toNat_lt_two_pow n)

end Binary64

end CardRewards
