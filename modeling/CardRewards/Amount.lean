import CardRewards.Number.Layout

/-!
# Amounts

Spending, rewards, rates and limits are amounts. The rules ask little of them: the four operations,
the order, a test for finiteness and two ways to write them into a note. `Amount` collects that,
and everything from the ledger to the ranking is stated for any type of amounts. The program runs
on `Binary64`; exact laws are stated for the rational numbers, where nothing is rounded.

Two derived operations carry the caps: `headroom`, which is what a limit leaves, and `smaller`.
Both are total on every type of amounts, a `NaN` counting as no headroom at all.
-/

namespace CardRewards

/-- What the reward rules ask of the numbers they are run on. -/
class Amount (α : Type) extends Zero α, One α, Add α, Sub α, Mul α, Div α, LT α, LE α where
  decLT : DecidableLT α
  decLE : DecidableLE α
  /-- The amount of so many units. -/
  ofWeight : UInt32 → α
  /-- Whether this is a number that can be spent or granted. -/
  isFinite : α → Bool
  /-- Whether nothing is left of a value when it is multiplied by this. -/
  isZero : α → Bool
  /-- The total order in which estimates are ranked. -/
  ranksUpTo : α → α → Bool
  /-- The text in a message. -/
  plain : α → String
  /-- The text in a note: two places. -/
  rounded : α → String

namespace Amount

variable {α : Type} [Amount α]

instance : DecidableLT α := decLT
instance : DecidableLE α := decLE

/-- What is left of a limit after some of it has been used; never below zero. -/
def headroom (limit used : α) : α :=
  let rest := limit - used
  if 0 < rest then rest else 0

/-- The smaller of two amounts, the first one if they are equal. -/
def smaller (x y : α) : α := if y < x then y else x

end Amount

instance : Amount Binary64 where
  decLT := inferInstance
  decLE := inferInstance
  ofWeight n := .ofNat n.toNat
  isFinite := Binary64.isFinite
  isZero := Binary64.isZero
  ranksUpTo := Binary64.totalLe
  plain := Binary64.plain
  rounded := Binary64.fixed 2

end CardRewards
