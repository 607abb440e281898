import CardRewards.Number.Binary64

/-!
# Shortest digits

The decimal numbers that round to a finite double form an interval around it. Among them are some
with fewest digits, and of those one is nearest to the double: its digits are the ones written out,
because they are the shortest that read back to the same double. `shortest` finds them in exact
whole-number arithmetic: for one digit, then two, and so on, it looks at the two neighbours of the
value on the grid of decimal numbers with that many digits.

An end of the interval belongs to it when the significand is even, since a tie rounds to the even
neighbour; at a power of two the lower end is half as far away.
-/

namespace CardRewards

/-- A decimal number `digits · 10 ^ power`. -/
structure Decimal where
  digits : Nat
  power : Int
deriving DecidableEq, Repr

/-- How many decimal digits a whole number has; none for zero. -/
def digitCount (n : Nat) : Nat := if n = 0 then 0 else (Nat.toDigits 10 n).length

namespace Binary64

/-- A fraction of whole numbers. -/
structure Ratio where
  num : Nat
  den : Nat

/-- `n · 2 ^ q` as a fraction. -/
def Ratio.scaled (n : Nat) (q : Int) : Ratio :=
  if 0 ≤ q then ⟨n * Nat.pow 2 q.toNat, 1⟩ else ⟨n, Nat.pow 2 (-q).toNat⟩

/-- The fraction divided by `10 ^ p`. -/
def Ratio.shift (r : Ratio) (p : Int) : Ratio :=
  if 0 ≤ p then ⟨r.num, r.den * Nat.pow 10 p.toNat⟩ else ⟨r.num * Nat.pow 10 (-p).toNat, r.den⟩

/-- The reals that round to a positive finite double, its value, and whether the ends belong. -/
structure Interval where
  low : Ratio
  value : Ratio
  high : Ratio
  closed : Bool

/-- The interval of reals that round to the magnitude of a finite double other than zero. -/
def interval (x : Binary64) : Interval :=
  let m := x.significand
  let q := x.exponent
  let lowGap := if m = Binary64.leadingBit ∧ x.exponentField > 1 then 1 else 2
  { low := .scaled (4 * m - lowGap) (q - 2)
    value := .scaled (4 * m) (q - 2)
    high := .scaled (4 * m + 2) (q - 2)
    closed := m % 2 == 0 }

/-- Whether a whole number, on a grid the interval has been shifted to, lies in the interval. -/
def Interval.holds (i : Interval) (d : Nat) : Bool :=
  if i.closed then i.low.num ≤ d * i.low.den && d * i.high.den ≤ i.high.num
  else i.low.num < d * i.low.den && d * i.high.den < i.high.num

/-- The interval counted in units of `10 ^ p`. -/
def Interval.shift (i : Interval) (p : Int) : Interval :=
  { i with low := i.low.shift p, value := i.value.shift p, high := i.high.shift p }

/-- Of the two whole numbers around the value, those in the interval, the nearer one first; an
exact tie goes to the even one. -/
def Interval.nearest? (i : Interval) : Option Nat :=
  let below := i.value.num / i.value.den
  let rest := i.value.num % i.value.den
  let belowFirst :=
    2 * rest < i.value.den || (2 * rest == i.value.den && below % 2 == 0)
  let order := if belowFirst then [below, below + 1] else [below + 1, below]
  order.find? i.holds

/-- The power of ten of the first digit of a positive value. -/
def leadingPower (value : Ratio) : Int :=
  (digitCount (value.num * Nat.pow 10 400 / value.den) : Int) - 401

/-- Look for a decimal number on ever finer grids. -/
def searchGrids (i : Interval) (lead : Int) : (grids : Nat) → (count : Nat) → Option Decimal
  | 0, _ => none
  | grids + 1, count =>
    let p := lead - count
    match (i.shift p).nearest? with
    | some d => some ⟨d, p⟩
    | none => searchGrids i lead grids (count + 1)

/-- Move the zeros at the end of the digits into the power. -/
def stripZeros : (fuel : Nat) → Decimal → Decimal
  | 0, d => d
  | fuel + 1, d =>
    if d.digits % 10 = 0 ∧ d.digits ≠ 0 then stripZeros fuel ⟨d.digits / 10, d.power + 1⟩ else d

/-- The shortest decimal number that rounds to the magnitude of a finite double, and of these the
nearest; zero for the two zeros. Seventeen digits always suffice. -/
def shortest (x : Binary64) : Decimal :=
  if x.isZero then ⟨0, 0⟩
  else
    let i := x.interval
    match searchGrids i (leadingPower i.value) 17 0 with
    | some d => stripZeros 17 d
    | none => ⟨0, 0⟩

end Binary64

end CardRewards
