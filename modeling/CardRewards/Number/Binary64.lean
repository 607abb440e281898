/-!
# Binary64 numbers

A `Binary64` is the sixty-four bits of an IEEE 754 double. Keeping the bits, and not only the value,
matters in one place: results are ranked by the total order of the standard, which tells `-0` from
`+0` and a negative `NaN` from a positive one.

Arithmetic rounds to nearest, ties to even. An operation on numbers that has no numeric result
gives the negative quiet `NaN`; an operand that is a `NaN` is passed on as it is, the left one
first. Comparisons are those of the standard: false as soon as a `NaN` takes part.

`totalKey` sends the bits to the integers so that the total order of the standard is the order of
the keys (`totalKey_injective`).
-/

namespace CardRewards

/-- A double, as its bits. -/
structure Binary64 where
  bits : UInt64
deriving DecidableEq, Inhabited

namespace Binary64

/-- The value of the bit that holds the sign. -/
def signBit : Nat := 0x8000000000000000

/-- The value of the leading bit of a significand. -/
def leadingBit : Nat := 0x10000000000000

/-- The bits below the sign: exponent and fraction. -/
def magnitude (x : Binary64) : Nat := x.bits.toNat % signBit

/-- Whether the sign bit is set. -/
def isNegative (x : Binary64) : Bool := decide (signBit ≤ x.bits.toNat)

/-- The magnitude of infinity; larger ones belong to `NaN`s. -/
def infinityMagnitude : Nat := 0x7FF * leadingBit

/-- Whether this is no number. -/
def isNaN (x : Binary64) : Bool := decide (infinityMagnitude < x.magnitude)

/-- Whether this is neither an infinity nor a `NaN`. -/
def isFinite (x : Binary64) : Bool := decide (x.magnitude < infinityMagnitude)

/-- Whether this is one of the two zeros. -/
def isZero (x : Binary64) : Bool := x.magnitude == 0

/-- The negative quiet `NaN`, which arithmetic answers where there is no numeric result. -/
def indefinite : Binary64 := ⟨0xFFF8000000000000⟩

/-- The positive quiet `NaN`, which texts write. -/
def nan : Binary64 := ⟨0x7FF8000000000000⟩

/-- Positive infinity. -/
def infinity : Binary64 := ⟨0x7FF0000000000000⟩

/-- The same number with the other sign. -/
def neg (x : Binary64) : Binary64 := ⟨x.bits ^^^ 0x8000000000000000⟩

instance : Zero Binary64 := ⟨⟨0⟩⟩
instance : One Binary64 := ⟨⟨0x3FF0000000000000⟩⟩
instance : Neg Binary64 := ⟨neg⟩

/-- The number as the machine calculates with it. -/
def toFloat (x : Binary64) : Float := Float.ofBits x.bits

/-- The result of a machine operation on numbers. -/
def ofFloat (f : Float) : Binary64 := if f.isNaN then indefinite else ⟨f.toBits⟩

/-- An arithmetic operation, passing on an operand that is no number. -/
def arith (op : Float → Float → Float) (x y : Binary64) : Binary64 :=
  if x.isNaN then x else if y.isNaN then y else ofFloat (op x.toFloat y.toFloat)

instance : Add Binary64 := ⟨arith Float.add⟩
instance : Sub Binary64 := ⟨arith Float.sub⟩
instance : Mul Binary64 := ⟨arith Float.mul⟩
instance : Div Binary64 := ⟨arith Float.div⟩

instance : LT Binary64 := ⟨fun x y => x.toFloat < y.toFloat⟩
instance : LE Binary64 := ⟨fun x y => x.toFloat ≤ y.toFloat⟩

instance : DecidableLT Binary64 := fun x y => inferInstanceAs (Decidable (x.toFloat < y.toFloat))
instance : DecidableLE Binary64 := fun x y => inferInstanceAs (Decidable (x.toFloat ≤ y.toFloat))

/-- The double nearest to a natural number. -/
def ofNat (n : Nat) : Binary64 := ofFloat (Float.ofNat n)

/-- The double nearest to `m · 10 ^ e`. -/
def ofDecimal (m : Nat) (e : Int) : Binary64 :=
  ofFloat (Float.ofScientific m (decide (e < 0)) e.natAbs)

/-! ## The total order -/

/-- The place of a double in the total order of the standard: negative `NaN`s, the negative
numbers, `-0`, `+0`, the positive numbers, positive `NaN`s. -/
def totalKey (x : Binary64) : Int :=
  if x.isNegative then -(x.magnitude : Int) - 1 else x.magnitude

/-- Whether one double comes before another in the total order, or is the same. -/
def totalLe (x y : Binary64) : Bool := decide (x.totalKey ≤ y.totalKey)

/-- Different bits have different places. -/
theorem totalKey_injective {x y : Binary64} (h : x.totalKey = y.totalKey) : x = y := by
  have hx := x.bits.toNat_lt
  have hy := y.bits.toNat_lt
  suffices x.bits.toNat = y.bits.toNat by
    cases x
    cases y
    exact congrArg mk (UInt64.toNat_inj.mp this)
  simp only [totalKey, isNegative, magnitude, decide_eq_true_eq] at h
  split at h <;> split at h <;> unfold signBit at * <;> omega

theorem totalLe_refl (x : Binary64) : x.totalLe x = true := by simp [totalLe]

theorem totalLe_trans {x y z : Binary64} (h : x.totalLe y = true) (k : y.totalLe z = true) :
    x.totalLe z = true := by
  simp only [totalLe, decide_eq_true_eq] at *
  omega

theorem totalLe_total (x y : Binary64) : (x.totalLe y || y.totalLe x) = true := by
  simp only [totalLe, Bool.or_eq_true, decide_eq_true_eq]
  omega

theorem totalLe_antisymm {x y : Binary64} (h : x.totalLe y = true) (k : y.totalLe x = true) :
    x = y := by
  simp only [totalLe, decide_eq_true_eq] at *
  exact totalKey_injective (by omega)

/-! ## Significand and exponent -/

/-- The exponent field. -/
def exponentField (x : Binary64) : Nat := x.magnitude / leadingBit

/-- The fraction field. -/
def fractionField (x : Binary64) : Nat := x.magnitude % leadingBit

/-- The whole number `m` of a finite value `m · 2 ^ q`. -/
def significand (x : Binary64) : Nat :=
  if x.exponentField = 0 then x.fractionField else leadingBit + x.fractionField

/-- The power `q` of a finite value `m · 2 ^ q`. -/
def exponent (x : Binary64) : Int :=
  if x.exponentField = 0 then -1074 else (x.exponentField : Int) - 1075

end Binary64

end CardRewards
