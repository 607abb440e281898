import CardRewards.Proofs.Number.Sum

/-!
# Signs of doubles

A double is on the side of a sign if it is a zero, or a finite or infinite number of that sign
(`OnSide`). On the positive side are just the doubles from zero upwards, `zero_le_iff_onSide`; a
`NaN` is on neither side.

Rounding and packing keep a side, whether a number comes out as zero or as infinity
(`onSide_roundWithAccuracy`, `onSide_unpack_pack`). So sums stay on the side of their numbers, and
products and quotients of what is not negative are not negative, unless a zero meets an infinity.
-/

namespace CardRewards

namespace Binary64

open Float.Model (Format UnpackedFloat totalExponent)
open Float.Model.UnpackedFloat

/-! ## Sides -/

/-- A number is on the side of a sign: it is zero, or has the sign. -/
def OnSide (s : Sign) : UnpackedFloat → Prop
  | .notANumber => False
  | .zero _ => True
  | .infinity t | .finite t .. => t = s

variable {s : Sign} {u v : UnpackedFloat}

theorem OnSide.ne_notANumber (h : OnSide s u) : u ≠ .notANumber := by
  rintro rfl
  exact h

theorem zero_le_iff_onSide {x : Binary64} : 0 ≤ x ↔ OnSide .positive x.unpacked := by
  rw [le_iff, unpacked_zero]
  cases x.unpacked with
  | notANumber => exact iff_of_false (by decide) id
  | zero t => exact iff_of_true rfl trivial
  | infinity t =>
    cases t with
    | negative => exact iff_of_false (by decide) nofun
    | positive => exact iff_of_true rfl rfl
  | finite t m e hm =>
    cases t with
    | negative => exact iff_of_false (nofun : ¬ false = true) nofun
    | positive => exact iff_of_true rfl rfl

theorem not_zero_lt_iff {x : Binary64} :
    ¬ 0 < x ↔ x.unpacked = .notANumber ∨ OnSide .negative x.unpacked := by
  rw [lt_iff, unpacked_zero]
  cases x.unpacked with
  | notANumber => exact iff_of_true (by decide) (.inl rfl)
  | zero t => exact iff_of_true (by cases t <;> decide) (.inr trivial)
  | infinity t =>
    cases t with
    | negative => exact iff_of_true (by decide) (.inr rfl)
    | positive => exact iff_of_false (by decide) (not_or.mpr ⟨nofun, nofun⟩)
  | finite t m e hm =>
    cases t with
    | negative => exact iff_of_true (nofun : ¬ false = true) (.inr rfl)
    | positive => exact iff_of_false (fun h => h rfl : ¬ ¬ true = true) (not_or.mpr ⟨nofun, nofun⟩)

theorem not_lt_zero_iff {x : Binary64} :
    ¬ x < 0 ↔ x.unpacked = .notANumber ∨ OnSide .positive x.unpacked := by
  rw [lt_iff, unpacked_zero]
  cases x.unpacked with
  | notANumber => exact iff_of_true (by decide) (.inl rfl)
  | zero t => exact iff_of_true (by cases t <;> decide) (.inr trivial)
  | infinity t =>
    cases t with
    | negative => exact iff_of_false (by decide) (not_or.mpr ⟨nofun, nofun⟩)
    | positive => exact iff_of_true (by decide) (.inr rfl)
  | finite t m e hm =>
    cases t with
    | negative => exact iff_of_false (fun h => h rfl : ¬ ¬ true = true) (not_or.mpr ⟨nofun, nofun⟩)
    | positive => exact iff_of_true (nofun : ¬ false = true) (.inr rfl)

/-! ## Rounding and packing -/

theorem onSide_roundWithAccuracy (spec : Format) (s : Sign) (m : Nat) (e : Int)
    (accuracy : Accuracy) : OnSide s (roundWithAccuracy spec s m e accuracy) := by
  unfold roundWithAccuracy
  dsimp only
  split
  next => trivial
  next => rfl

/-- A whole multiple of a power of two is rounded to its own side. -/
theorem onSide_normalize (spec : Format) {n : Int} (s : Sign) (hn : 0 ≤ s.apply n) (e : Int)
    (zeroSign : Sign) : OnSide s (UnpackedFloat.normalize spec n e zeroSign) := by
  unfold UnpackedFloat.normalize
  split
  next hneg =>
    rw [compare_lt_iff_lt] at hneg
    cases s with
    | negative => exact onSide_roundWithAccuracy ..
    | positive => exact absurd hneg (not_lt.mpr hn)
  next => trivial
  next hpos =>
    rw [compare_gt_iff_gt] at hpos
    cases s with
    | negative => exact absurd hpos (not_lt.mpr (Int.neg_nonneg.mp hn))
    | positive => exact onSide_roundWithAccuracy ..

theorem onSide_unpack {b : BitVec Format.binary64.numBits}
    (hsign : Sign.ofBitVec (unpackSign b) = s) (h : unpack Format.binary64 b ≠ .notANumber) :
    OnSide s (unpack Format.binary64 b) := by
  revert h
  unfold unpack
  dsimp only
  split
  next =>
    split
    next => exact fun _ => hsign
    next => exact fun h => absurd rfl h
  next =>
    split
    next =>
      split
      next => exact fun _ => trivial
      next => exact fun _ => hsign
    next => exact fun _ => hsign

/-- Packing a number and unpacking it again keeps its side. -/
theorem onSide_unpack_pack (h : OnSide s u) :
    OnSide s (unpack Format.binary64 (pack Format.binary64 u)) := by
  have hnumber := unpack_pack_ne_notANumber h.ne_notANumber
  cases u with
  | notANumber => exact h.elim
  | zero t =>
    show OnSide s (unpack Format.binary64 (packedZero Format.binary64 t))
    rw [unpack_packedZero]
    trivial
  | infinity t =>
    obtain rfl : t = s := h
    refine onSide_unpack ?_ hnumber
    simp [pack, packedInfinity]
  | finite t m e hm =>
    obtain rfl : t = s := h
    refine onSide_unpack ?_ hnumber
    unfold pack
    dsimp only
    split
    next => simp [packedInfinity]
    next => split <;> simp

/-! ## Operations -/

theorem apply_add_apply (s : Sign) (m n : ℕ) : 0 ≤ s.apply (s.apply m + s.apply n) := by
  cases s <;> simp only [Sign.apply] <;> omega

theorem apply_sub_apply (s : Sign) (m n : ℕ) : 0 ≤ s.apply (s.apply m - (-s).apply n) := by
  cases s
  · show 0 ≤ -(-(m : ℤ) - n)
    omega
  · show 0 ≤ (m : ℤ) - -n
    omega

theorem onSide_add (spec : Format) (hu : OnSide s u) (hv : OnSide s v) :
    OnSide s (UnpackedFloat.add spec u v) := by
  cases u with
  | notANumber => exact hu.elim
  | infinity t =>
    obtain rfl : t = s := hu
    cases v with
    | notANumber => exact hv.elim
    | infinity t' =>
      obtain rfl : t' = t := hv
      simp [UnpackedFloat.add, OnSide]
    | zero | finite => rfl
  | zero t =>
    cases v with
    | zero =>
      simp only [UnpackedFloat.add]
      split <;> trivial
    | notANumber | infinity | finite => exact hv
  | finite t m e hm =>
    obtain rfl : t = s := hu
    cases v with
    | notANumber => exact hv.elim
    | infinity => exact hv
    | zero => rfl
    | finite t' m' e' hm' =>
      obtain rfl : t' = t := hv
      exact onSide_normalize spec t' (apply_add_apply t' _ _) _ .positive

/-- A difference of numbers on opposite sides is on the side of the first one. -/
theorem onSide_sub (spec : Format) (hu : OnSide s u) (hv : OnSide (-s) v) :
    OnSide s (UnpackedFloat.sub spec u v) := by
  have hneg (t : Sign) : - -t = t := by cases t <;> rfl
  cases u with
  | notANumber => exact hu.elim
  | infinity t =>
    obtain rfl : t = s := hu
    cases v with
    | notANumber => exact hv.elim
    | infinity t' =>
      obtain rfl : t' = -t := hv
      simp [UnpackedFloat.sub, OnSide, hneg]
    | zero | finite => rfl
  | zero t =>
    cases v with
    | notANumber => exact hv.elim
    | infinity t' | finite t' =>
      obtain rfl : t' = -s := hv
      exact hneg s
    | zero =>
      simp only [UnpackedFloat.sub]
      split <;> trivial
  | finite t m e hm =>
    obtain rfl : t = s := hu
    cases v with
    | notANumber => exact hv.elim
    | infinity t' =>
      obtain rfl : t' = -t := hv
      exact hneg t
    | zero => rfl
    | finite t' m' e' hm' =>
      obtain rfl : t' = -t := hv
      exact onSide_normalize spec t (apply_sub_apply t _ _) _ .positive

/-- One of two numbers is zero and the other one infinite, so that they have no product. -/
def ZeroMeetsInfinity : UnpackedFloat → UnpackedFloat → Prop
  | .zero _, .infinity _ | .infinity _, .zero _ => True
  | _, _ => False

/-- A product with what is not negative is on the side of the other number. -/
theorem onSide_mul (spec : Format) (hu : OnSide .positive u) (hv : OnSide s v)
    (hmeet : ¬ ZeroMeetsInfinity u v) : OnSide s (UnpackedFloat.mul spec u v) := by
  have hmul (t : Sign) : .positive * t = t := by cases t <;> rfl
  cases u with
  | notANumber => exact hu.elim
  | infinity t =>
    obtain rfl : t = .positive := hu
    cases v with
    | notANumber => exact hv.elim
    | zero => exact absurd trivial hmeet
    | infinity t' | finite t' =>
      obtain rfl : t' = s := hv
      exact hmul t'
  | zero t =>
    cases v with
    | notANumber => exact hv.elim
    | infinity => exact absurd trivial hmeet
    | zero | finite => trivial
  | finite t m e hm =>
    obtain rfl : t = .positive := hu
    cases v with
    | notANumber => exact hv.elim
    | zero => trivial
    | infinity t' =>
      obtain rfl : t' = s := hv
      exact hmul t'
    | finite t' =>
      obtain rfl : t' = s := hv
      show OnSide t' (roundWithAccuracy spec (.positive * t') _ _ .exact)
      rw [hmul]
      exact onSide_roundWithAccuracy ..

/-- A quotient by a finite number above zero. -/
theorem onSide_div (spec : Format) (hu : OnSide .positive u) {m : Nat} {e : Int} (hm : 0 < m) :
    OnSide .positive (UnpackedFloat.div spec u (.finite .positive m e hm)) := by
  cases u with
  | notANumber => exact hu.elim
  | zero => trivial
  | infinity t =>
    obtain rfl : t = .positive := hu
    rfl
  | finite t =>
    obtain rfl : t = .positive := hu
    exact onSide_roundWithAccuracy ..

/-! ## Doubles -/

variable {x y : Binary64}

theorem unpacked_of_isNaN (h : x.isNaN = true) : x.unpacked = .notANumber := by
  have hbits : @isNaNBits Format.binary64 x.bits.toBitVec = true := by
    have hlt : infinityMagnitude < x.magnitude := by simpa [isNaN] using h
    unfold infinityMagnitude magnitude signBit leadingBit at hlt
    refine decide_eq_true ⟨BitVec.eq_of_toNat_eq ?_, fun hzero => ?_⟩
    · simp [unpackExponent, Nat.shiftRight_eq_div_pow]
      omega
    · have heq := congrArg BitVec.toNat hzero
      simp [unpackMantissa] at heq
      omega
  show unpack Format.binary64 (pack Format.binary64 (unpack Format.binary64 x.bits.toBitVec)) = _
  rw [pack_unpack, if_pos hbits, unpack_packedNaN]

theorem isNaN_of_onSide (h : OnSide s x.unpacked) : x.isNaN = false := by
  refine Bool.eq_false_of_not_eq_true fun hnan => ?_
  exact h.ne_notANumber (unpacked_of_isNaN hnan)

theorem unpacked_ofFloat {f : Float} (h : f.isNaN = false) :
    (ofFloat f).unpacked = f.toModel.unpack := by
  unfold ofFloat
  rw [h]
  show (Float.ofBits f.toBits).toModel.unpack = _
  rw [Float.ofBits_toBits]

/-- A result of an operation is on the side on which the numbers of its doubles come out. -/
theorem onSide_arith {op : Float → Float → Float}
    {f : UnpackedFloat → UnpackedFloat → UnpackedFloat}
    (hop : ∀ a b : Float, (op a b).toModel = .pack (f a.toModel.unpack b.toModel.unpack))
    (hx : x.isNaN = false) (hy : y.isNaN = false) (h : OnSide s (f x.unpacked y.unpacked)) :
    OnSide s (arith op x y).unpacked := by
  have hpacked : OnSide s (op x.toFloat y.toFloat).toModel.unpack := by
    rw [hop]
    exact onSide_unpack_pack h
  have hnumber : (op x.toFloat y.toFloat).isNaN = false := by
    refine Bool.eq_false_of_not_eq_true fun hnan => ?_
    exact hpacked.ne_notANumber (isNaN_iff.mp hnan)
  unfold arith
  rw [hx, hy]
  show OnSide s (ofFloat _).unpacked
  rw [unpacked_ofFloat hnumber]
  exact hpacked

theorem zero_le_add (hx : 0 ≤ x) (hy : 0 ≤ y) : 0 ≤ x + y := by
  rw [zero_le_iff_onSide] at hx hy ⊢
  exact onSide_arith (f := UnpackedFloat.add Format.binary64) (fun _ _ => rfl)
    (isNaN_of_onSide hx) (isNaN_of_onSide hy) (onSide_add _ hx hy)

theorem zero_le_of_lt (h : 0 < x) : 0 ≤ x := by
  refine zero_le_iff_onSide.mpr ?_
  have hside : ¬ (x.unpacked = .notANumber ∨ OnSide .negative x.unpacked) :=
    fun hside => not_zero_lt_iff.mpr hside h
  cases hx : x.unpacked with
  | notANumber => exact absurd (.inl hx) hside
  | zero => trivial
  | infinity t | finite t =>
    cases t with
    | negative => exact absurd (.inr (hx ▸ rfl)) hside
    | positive => rfl

/-- Nothing is left of an amount that is not above zero, if what is used is not below it. -/
theorem not_zero_lt_sub (hx : ¬ 0 < x) (hy : 0 ≤ y) : ¬ 0 < x - y := by
  have hside := zero_le_iff_onSide.mp hy
  rw [not_zero_lt_iff] at hx ⊢
  cases hnan : x.isNaN with
  | true =>
    -- a double that is no number is passed on
    refine .inl ?_
    show (arith Float.sub x y).unpacked = _
    rw [arith, if_pos hnan]
    exact unpacked_of_isNaN hnan
  | false =>
    rcases hx with hx | hx
    · exact absurd hx (unpacked_ne_notANumber hnan)
    · exact .inr (onSide_arith (f := UnpackedFloat.sub Format.binary64) (fun _ _ => rfl) hnan
        (isNaN_of_onSide hside) (onSide_sub _ hx hside))

/-! ## Finite doubles -/

theorem isFinite_unpacked (h : x.isFinite = true) : x.unpacked.isFinite = true := by
  have hnan := isNaN_of_isFinite h
  cases hx : x.unpacked with
  | notANumber => exact absurd hx (unpacked_ne_notANumber hnan)
  | zero | finite => rfl
  | infinity t =>
    -- the bits are those of an infinity
    have hbits := pack_unpacked hnan
    rw [hx] at hbits
    obtain rfl : x = ⟨.ofBitVec (packedInfinity Format.binary64 t)⟩ :=
      congrArg mk (UInt64.toBitVec_inj.mp hbits.symm)
    cases t <;> exact absurd h (by decide)

/-- What is less than some double is finite, if it is not negative. -/
theorem isFinite_unpacked_of_lt (hx : 0 ≤ x) (h : x < y) : x.unpacked.isFinite = true := by
  rw [zero_le_iff_onSide] at hx
  rw [lt_iff] at h
  revert hx h
  cases x.unpacked with
  | notANumber => exact fun hx => hx.elim
  | zero | finite => exact fun _ _ => rfl
  | infinity t =>
    rintro (rfl : t = .positive) h
    -- nothing is above infinity
    cases hy : y.unpacked with
    | infinity t' =>
      rw [hy] at h
      cases t' <;> cases h
    | notANumber | zero | finite =>
      rw [hy] at h
      cases h

theorem zero_le_of_not_lt (hfinite : x.isFinite = true) (h : ¬ x < 0) : 0 ≤ x := by
  rw [zero_le_iff_onSide]
  refine (not_lt_zero_iff.mp h).resolve_left ?_
  exact unpacked_ne_notANumber (isNaN_of_isFinite hfinite)

/-- What is not above zero is not above any double from zero upwards. -/
theorem not_lt_of_not_pos (hx : 0 ≤ x) (hy : ¬ 0 < y) : ¬ x < y := by
  rw [zero_le_iff_onSide] at hx
  rw [lt_iff]
  rcases not_zero_lt_iff.mp hy with hnan | hside
  · rw [hnan]
    cases x.unpacked <;> exact nofun
  · revert hx hside
    -- the signs, where there are any, are different
    cases x.unpacked with
    | notANumber => exact fun hx => hx.elim
    | zero t =>
      cases y.unpacked with
      | notANumber => exact fun _ hside => hside.elim
      | zero t' => cases t <;> cases t' <;> exact fun _ _ => nofun
      | infinity t' | finite t' =>
        rintro - (rfl : t' = .negative)
        exact nofun
    | infinity t | finite t =>
      rintro (rfl : t = .positive)
      cases y.unpacked with
      | notANumber => exact fun hside => hside.elim
      | zero t' => exact fun _ => nofun
      | infinity t' | finite t' =>
        rintro (rfl : t' = .negative)
        exact nofun

/-- A finite double above zero. -/
def IsPositive (x : Binary64) : Prop := ∃ m e hm, x.unpacked = .finite .positive m e hm

theorem isPositive_of_pos (hfinite : x.isFinite = true) (h : 0 < x) : x.IsPositive := by
  have hunpacked := isFinite_unpacked hfinite
  have hside := zero_le_iff_onSide.mp (zero_le_of_lt h)
  have hne : ¬ (x.unpacked = .notANumber ∨ OnSide .negative x.unpacked) :=
    fun hside => not_zero_lt_iff.mpr hside h
  unfold IsPositive
  cases hx : x.unpacked with
  | notANumber => exact absurd (.inl hx) hne
  | zero => exact absurd (.inr (hx ▸ trivial)) hne
  | infinity t =>
    rw [hx] at hunpacked
    cases hunpacked
  | finite t m e hm =>
    obtain rfl : t = .positive := by simpa [hx, OnSide] using hside
    exact ⟨m, e, hm, rfl⟩

theorem IsPositive.zero_le (h : x.IsPositive) : 0 ≤ x := by
  obtain ⟨m, e, hm, hx⟩ := h
  rw [zero_le_iff_onSide, hx]
  rfl

/-! ## Products and quotients -/

theorem zero_le_mul (hx : 0 ≤ x) (hy : 0 ≤ y)
    (hmeet : ¬ ZeroMeetsInfinity x.unpacked y.unpacked) : 0 ≤ x * y := by
  rw [zero_le_iff_onSide] at hx hy ⊢
  exact onSide_arith (f := UnpackedFloat.mul Format.binary64) (fun _ _ => rfl)
    (isNaN_of_onSide hx) (isNaN_of_onSide hy) (onSide_mul _ hx hy hmeet)

theorem zero_le_mul_of_isFinite (hx : 0 ≤ x) (hy : 0 ≤ y) (hfinite : x.unpacked.isFinite = true)
    (hfinite' : y.unpacked.isFinite = true) : 0 ≤ x * y := by
  refine zero_le_mul hx hy fun hmeet => ?_
  revert hfinite hfinite' hmeet
  cases x.unpacked <;> cases y.unpacked <;> simp [UnpackedFloat.isFinite, ZeroMeetsInfinity]

theorem IsPositive.zero_le_mul (hx : x.IsPositive) (hy : 0 ≤ y) : 0 ≤ x * y := by
  refine Binary64.zero_le_mul hx.zero_le hy ?_
  obtain ⟨m, e, hm, hx⟩ := hx
  rw [hx]
  exact id

/-- What is not at least zero, a `NaN` too, does not come above zero when it is multiplied. -/
theorem IsPositive.not_zero_lt_mul (hx : x.IsPositive) (hy : ¬ 0 ≤ y) : ¬ 0 < x * y := by
  have hside := zero_le_iff_onSide.mp hx.zero_le
  have hxnan := isNaN_of_onSide hside
  rw [not_zero_lt_iff]
  cases hnan : y.isNaN with
  | true =>
    -- a double that is no number is passed on
    refine .inl ?_
    show (arith Float.mul x y).unpacked = _
    rw [arith, if_neg (by simp [hxnan]), if_pos hnan]
    exact unpacked_of_isNaN hnan
  | false =>
    have hnegative : OnSide .negative y.unpacked := by
      rw [zero_le_iff_onSide] at hy
      have hnumber := unpacked_ne_notANumber hnan
      cases hunpacked : y.unpacked with
      | notANumber => exact absurd hunpacked hnumber
      | zero => trivial
      | infinity t | finite t =>
        cases t with
        | negative => rfl
        | positive => exact absurd (hunpacked ▸ rfl) hy
    obtain ⟨m, e, hm, hunpacked⟩ := hx
    refine .inr (onSide_arith (f := UnpackedFloat.mul Format.binary64) (fun _ _ => rfl) hxnan hnan
      (onSide_mul _ hside hnegative ?_))
    rw [hunpacked]
    exact id

theorem IsPositive.zero_le_mul_left (hy : y.IsPositive) (hx : 0 ≤ x) : 0 ≤ x * y := by
  refine Binary64.zero_le_mul hx hy.zero_le ?_
  obtain ⟨m, e, hm, hy⟩ := hy
  rw [hy]
  cases x.unpacked <;> exact id

theorem IsPositive.zero_le_div (hy : y.IsPositive) (hx : 0 ≤ x) : 0 ≤ x / y := by
  have hside := zero_le_iff_onSide.mp hy.zero_le
  obtain ⟨m, e, hm, hunpacked⟩ := hy
  rw [zero_le_iff_onSide] at hx ⊢
  refine onSide_arith (f := UnpackedFloat.div Format.binary64) (fun _ _ => rfl)
    (isNaN_of_onSide hx) (isNaN_of_onSide hside) ?_
  rw [hunpacked]
  exact onSide_div _ hx hm

end Binary64

end CardRewards
