import CardRewards.Proofs.Number.Comparison
import Mathlib

/-!
# Sums of doubles

A zero added to a double changes it in one case: `-0 + 0` is `+0`. A sum that starts from `+0` never
meets that case, since a sum is `-0` only if its first number is (`add_ne_neg_zero`).
So zeros among the numbers of a sum may be left out, to the last bit: `foldl_add_filter`.

That no other sum is `-0` comes down to rounding. Every double is a whole multiple of the least
positive one, so the exact sum of two is one too, and what is not zero is not rounded to zero
(`round_fits`).
-/

namespace CardRewards

namespace Binary64

open Float.Model (Format UnpackedFloat totalExponent)
open Float.Model.UnpackedFloat

/-! ## Rounding -/

/-- A significand and an exponent that a double has room for, of a number that is not zero. The
exponent may still be too large. -/
structure Fits (m : Nat) (e : Int) : Prop where
  pos : 0 < m
  lt : m < 2 ^ 53
  le : -1074 ≤ e

theorem mantissa_shiftRight (em : ExtendedMantissa) (n : Nat) :
    (em >>> n).mantissa = em.mantissa / 2 ^ n := by
  induction n with
  | zero => exact (Nat.div_one _).symm
  | succ n ih =>
    show (em >>> n).mantissa / 2 = _
    rw [ih, Nat.div_div_eq_div_mul, pow_succ]

theorem mantissa_ofMantissaAndAccuracy (m : Nat) (accuracy : Accuracy) :
    (ExtendedMantissa.ofMantissaAndAccuracy m accuracy).mantissa = m := by
  cases accuracy with
  | exact => rfl
  | inexact order => cases order <;> rfl

theorem mantissa_le_roundedMantissa (em : ExtendedMantissa) :
    em.mantissa ≤ em.roundedMantissa := by
  unfold ExtendedMantissa.roundedMantissa
  cases em.accuracy with
  | exact => exact le_rfl
  | inexact order =>
    cases order with
    | lt => exact le_rfl
    | eq => exact Nat.le_add_right ..
    | gt => exact Nat.le_add_right ..

/-- What is shifted to the exponent of a double keeps its leading bit and fits. -/
theorem shiftToTargetExponent_fits {m : Nat} {e : Int} (hm : 0 < m) (he : -1074 ≤ e)
    (accuracy : Accuracy) :
    let shifted := shiftToTargetExponent Format.binary64 m e accuracy
    Fits shifted.1.mantissa shifted.2 := by
  have hshift : (Format.binary64.targetExponent (totalExponent m e) - e).toNat = m.log2 - 52 := by
    have hmin : Format.binary64.minExponent = -1074 := rfl
    have hbits : Format.binary64.mantissaBits = 53 := rfl
    unfold Format.targetExponent totalExponent
    rw [hmin, hbits]
    omega
  have hlow : 2 ^ m.log2 ≤ m := Nat.log2_self_le (Nat.ne_of_gt hm)
  have hhigh : m < 2 ^ (m.log2 + 1) := Nat.lt_log2_self
  simp only [shiftToTargetExponent, shiftToExponent, hshift]
  refine ⟨?_, ?_, by omega⟩
  · rw [mantissa_shiftRight, mantissa_ofMantissaAndAccuracy]
    refine Nat.div_pos (le_trans ?_ hlow) (Nat.two_pow_pos _)
    exact Nat.pow_le_pow_right (by omega) (Nat.sub_le ..)
  · rw [mantissa_shiftRight, mantissa_ofMantissaAndAccuracy,
      Nat.div_lt_iff_lt_mul (Nat.two_pow_pos _), ← pow_add]
    refine lt_of_lt_of_le hhigh (Nat.pow_le_pow_right (by omega) ?_)
    omega

/-- A number from the least positive double upwards is not rounded to zero. -/
theorem round_fits {m : Nat} {e : Int} (s : Sign) (hm : 0 < m) (he : -1074 ≤ e) :
    ∃ m' e' pos, UnpackedFloat.round Format.binary64 s m e = .finite s m' e' pos ∧ Fits m' e' := by
  -- the exponent is lowered first, though not below the least one
  have hmin : -1074 ≤ Format.binary64.targetExponent (totalExponent m e) := le_max_right _ _
  unfold UnpackedFloat.round
  generalize Format.binary64.targetExponent (totalExponent m e) = target at hmin ⊢
  have hlow : 0 < (decreaseExponent m e target).1 := by
    show 0 < m <<< (e - target).toNat
    rw [Nat.shiftLeft_eq]
    exact Nat.mul_pos hm (Nat.two_pow_pos _)
  have hexponent : -1074 ≤ (decreaseExponent m e target).2 := by
    show -1074 ≤ e - ((e - target).toNat : Int)
    omega
  -- then bits are dropped, and perhaps one more after rounding up
  let first := shiftToTargetExponent Format.binary64 (decreaseExponent m e target).1
    (decreaseExponent m e target).2 .exact
  have hfirst : Fits first.1.mantissa first.2 := shiftToTargetExponent_fits hlow hexponent .exact
  have hrounded : 0 < first.1.roundedMantissa :=
    lt_of_lt_of_le hfirst.pos (mantissa_le_roundedMantissa _)
  have hlast := shiftToTargetExponent_fits hrounded hfirst.le .exact
  exact ⟨_, _, hlast.pos, dif_neg (Nat.ne_of_gt hlast.pos), hlast⟩

/-! ## Zeros -/

/-- What fits is not packed into the bits of a zero. -/
theorem pack_finite_ne_packedZero {m : Nat} {e : Int} (h : Fits m e) (s s' : Sign) (pos : 0 < m) :
    pack Format.binary64 (.finite s m e pos) ≠ packedZero Format.binary64 s' := by
  intro hzero
  have hexponent := congrArg unpackExponent hzero
  have hmantissa := congrArg unpackMantissa hzero
  unfold packedZero at hexponent hmantissa
  rw [unpackExponent_packComponents] at hexponent
  rw [unpackMantissa_packComponents] at hmantissa
  unfold pack at hexponent hmantissa
  dsimp only at hexponent hmantissa
  split at hexponent
  next => simp [packedInfinity] at hexponent
  next hfits =>
    rw [if_neg hfits] at hmantissa
    have hbias : (Format.binary64.exponentBias : Int) = 1023 := rfl
    have hbits : Format.binary64.mantissaBits = 53 := rfl
    have hpow : 2 ^ Format.binary64.exponentBits = 2048 := rfl
    have hle := h.le
    split at hexponent
    next =>
      -- the exponent of a normal number is above that of a zero
      rw [unpackExponent_packComponents] at hexponent
      have heq := congrArg BitVec.toNat hexponent
      simp at heq
      omega
    next hsubnormal =>
      -- a subnormal number has a significand of at most fifty-two bits, and not of none
      rw [if_neg hsubnormal, unpackMantissa_packComponents] at hmantissa
      have heq := congrArg BitVec.toNat hmantissa
      have hlog : m.log2 < 52 := by
        have := (Nat.log2_lt (Nat.ne_of_gt pos)).mpr h.lt
        omega
      have hlt : m < 2 ^ 52 := (Nat.log2_lt (Nat.ne_of_gt pos)).mp hlog
      simp at heq
      omega

/-- The bits of a double stand for a number with an exponent from the least one upwards. -/
theorem le_exponent_of_unpack {b : BitVec Format.binary64.numBits} {s : Sign} {m : Nat} {e : Int}
    {pos : 0 < m} (h : unpack Format.binary64 b = .finite s m e pos) : -1074 ≤ e := by
  have hbias : (Format.binary64.exponentBias : Int) = 1023 := rfl
  unfold unpack at h
  dsimp only at h
  split at h
  next => split at h <;> cases h
  next =>
    split at h
    next hsubnormal =>
      split at h
      next => cases h
      next =>
        cases h
        rw [hsubnormal, hbias]
        decide
    next hnormal =>
      cases h
      have hne : (unpackExponent b).toNat ≠ 0 := fun h0 => hnormal (BitVec.eq_of_toNat_eq h0)
      rw [hbias]
      show -1074 ≤ ((unpackExponent b).toNat : Int) - (1023 + 52)
      omega

theorem pack_normalize_ne_packedZero {n e : Int} (he : -1074 ≤ e) :
    pack Format.binary64 (UnpackedFloat.normalize Format.binary64 n e .positive) ≠
      packedZero Format.binary64 .negative := by
  unfold UnpackedFloat.normalize
  split
  next hneg =>
    rw [compare_lt_iff_lt] at hneg
    obtain ⟨m', e', pos, hround, hfits⟩ := round_fits (m := (-n).toNat) .negative (by omega) he
    rw [hround]
    exact pack_finite_ne_packedZero hfits .negative .negative pos
  next => decide
  next hpos =>
    rw [compare_gt_iff_gt] at hpos
    obtain ⟨m', e', pos, hround, hfits⟩ := round_fits (m := n.toNat) .positive (by omega) he
    rw [hround]
    exact pack_finite_ne_packedZero hfits .positive .negative pos

theorem unpack_pack_unpack (a : Float.Model) :
    unpack Format.binary64 (pack Format.binary64 a.unpack) = a.unpack :=
  congrArg (unpack Format.binary64) (pack_unpack_of_valid a.valid)

/-- A sum is `-0` only if its first number is. -/
theorem unpack_eq_zero_of_add {a b : Float.Model}
    (h : pack Format.binary64 (UnpackedFloat.add Format.binary64 a.unpack b.unpack) =
      packedZero Format.binary64 .negative) : a.unpack = .zero .negative := by
  have hexponent {m₁ m₂ : Nat} {e₁ e₂ : Int} {s₁ s₂ : Sign} {pos₁ : 0 < m₁} {pos₂ : 0 < m₂}
      (ha : a.unpack = .finite s₁ m₁ e₁ pos₁) (hb : b.unpack = .finite s₂ m₂ e₂ pos₂) :
      -1074 ≤ min e₁ e₂ := le_min (le_exponent_of_unpack ha) (le_exponent_of_unpack hb)
  have hsum := congrArg (unpack Format.binary64) h
  rw [unpack_packedZero] at hsum
  have ha := unpack_pack_unpack a
  have hb := unpack_pack_unpack b
  generalize a.unpack = u, b.unpack = v at *
  revert h hsum
  -- a sum is one of its numbers, or no number, or a zero of another kind, or has been rounded
  fun_cases UnpackedFloat.add Format.binary64 u v with
  | case1 | case3 | case5 =>
    intro _ hsum
    cases ha.symm.trans hsum
  | case2 | case6 =>
    intro _ hsum
    cases hb.symm.trans hsum
  | case4 =>
    intro _ hsum
    cases unpack_packedNaN.symm.trans hsum
  | case7 | case10 =>
    intro _ hsum
    exact ha.symm.trans hsum
  | case8 =>
    intro _ hsum
    cases unpack_packedZero.symm.trans hsum
  | case9 _ _ _ _ hne =>
    intro _ hsum
    exact absurd (hb.symm.trans hsum) (hne _)
  | case11 =>
    intro h _
    exact absurd h (pack_normalize_ne_packedZero (hexponent rfl rfl))

/-! ## Sums -/

/-- The machine keeps the bits of a double that is no `NaN`. -/
theorem toBits_toFloat {x : Binary64} (h : x.isNaN = false) : x.toFloat.toBits = x.bits := by
  show UInt64.ofBitVec (pack Format.binary64 (unpack Format.binary64 x.bits.toBitVec)) = x.bits
  have hbits : ¬ @isNaNBits Format.binary64 x.bits.toBitVec = true := by
    intro hbits
    obtain ⟨hexponent, hmantissa⟩ := of_decide_eq_true hbits
    refine unpack_bits_ne_notANumber h ?_
    unfold unpack
    dsimp only
    rw [if_pos hexponent, if_neg hmantissa]
  rw [pack_unpack, if_neg hbits]

theorem ofFloat_toFloat {x : Binary64} (h : x.isNaN = false) : ofFloat x.toFloat = x := by
  have hnan : x.toFloat.isNaN = false := by
    show x.unpacked.isNaN = false
    have hnumber := unpacked_ne_notANumber h
    cases hx : x.unpacked with
    | notANumber => exact absurd hx hnumber
    | infinity | zero | finite => rfl
  unfold ofFloat
  rw [hnan, toBits_toFloat h]
  rfl

/-- The bits that a double is compared by are its own. -/
theorem pack_unpacked {x : Binary64} (h : x.isNaN = false) :
    pack Format.binary64 x.unpacked = x.bits.toBitVec := by
  rw [← toBits_toFloat h]
  exact pack_unpack_of_valid x.toFloat.toModel.valid

theorem eq_neg_zero_of_unpacked {x : Binary64} (hnan : x.isNaN = false)
    (h : x.unpacked = .zero .negative) : x = -0 := by
  have hbits := pack_unpacked hnan
  rw [h] at hbits
  exact congrArg mk (UInt64.toBitVec_inj.mp hbits.symm)

/-- Adding zero to a double leaves it as it is, unless it is the other zero. -/
theorem add_zero_eq {x : Binary64} (h : x ≠ -0) : x + 0 = x := by
  show arith Float.add x 0 = x
  unfold arith
  cases hnan : x.isNaN with
  | true => rfl
  | false =>
    have hsum : UnpackedFloat.add Format.binary64 x.unpacked (.zero .positive) = x.unpacked := by
      have hne : x.unpacked ≠ .zero .negative := fun hx => h (eq_neg_zero_of_unpacked hnan hx)
      cases hx : x.unpacked with
      | notANumber | infinity | finite => rfl
      | zero s =>
        cases s with
        | positive => rfl
        | negative => exact absurd hx hne
    have hadd : Float.add x.toFloat (toFloat 0) = x.toFloat := by
      refine Float.toBits_inj.mp (UInt64.toBitVec_inj.mp ?_)
      show pack Format.binary64 (UnpackedFloat.add Format.binary64 x.unpacked (.zero .positive)) = _
      rw [hsum]
      exact pack_unpack_of_valid x.toFloat.toModel.valid
    have hzero : isNaN 0 = false := rfl
    rw [hzero, hadd]
    exact ofFloat_toFloat hnan

/-- A sum is `-0` only if its first number is. -/
theorem add_ne_neg_zero {x y : Binary64} (h : x ≠ -0) : x + y ≠ -0 := by
  show arith Float.add x y ≠ -0
  unfold arith
  cases hx : x.isNaN with
  | true => exact h
  | false =>
    cases hy : y.isNaN with
    | true =>
      rintro rfl
      cases hy
    | false =>
      show ofFloat (Float.add x.toFloat y.toFloat) ≠ -0
      unfold ofFloat
      split
      next => decide
      next =>
        intro heq
        have hbits := congrArg (fun z : Binary64 => z.bits.toBitVec) heq
        exact h (eq_neg_zero_of_unpacked hx (unpack_eq_zero_of_add hbits))

/-- Zeros may be left out of a sum that starts from another number than `-0`. -/
theorem foldl_add_filter {β : Type} {f : β → Binary64} {p : β → Bool} {l : List β}
    (hzero : ∀ y ∈ l, p y = false → f y = 0) {start : Binary64} (hstart : start ≠ -0) :
    (l.filter p).foldl (fun sum y => sum + f y) start =
      l.foldl (fun sum y => sum + f y) start := by
  induction l generalizing start with
  | nil => rfl
  | cons y rest ih =>
    have hrest : ∀ z ∈ rest, p z = false → f z = 0 := fun z hz => hzero z (.tail y hz)
    cases hp : p y with
    | true =>
      rw [List.filter_cons_of_pos hp, List.foldl_cons, List.foldl_cons]
      exact ih hrest (add_ne_neg_zero hstart)
    | false =>
      have hy : f y = 0 := hzero y (.head rest) hp
      rw [List.filter_cons_of_neg (by simp [hp]), List.foldl_cons, hy, add_zero_eq hstart]
      exact ih hrest hstart

end Binary64

end CardRewards
