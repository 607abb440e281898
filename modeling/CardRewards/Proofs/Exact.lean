import CardRewards.Amount
import CardRewards.Number.Layout
import Mathlib.Algebra.Order.Field.Rat
import Mathlib.Tactic.Linarith

/-!
# Exact amounts

Sums of rewards and limits agree to the last place only where nothing is rounded. The rational
numbers are such amounts: every operation is exact, every amount is finite, and estimates are
ranked by their size. Statements that add up amounts over many purchases are about them; all
others hold for every type of amounts.

`headroom_eq_max` and `smaller_eq_min` say what the two derived operations are on exact amounts.
`Amount.AddsUp` is what a sum needs to tell whether anything was added to it.
-/

namespace CardRewards

namespace Exact

/-- The text of an exact amount: a whole number, or one over another. -/
def plain (x : ℚ) : String :=
  if x.den = 1 then toString x.num else toString x.num ++ "/" ++ toString x.den

/-- The text of an exact amount rounded to two places, a tie to the even digit. -/
def rounded (x : ℚ) : String :=
  let hundredths := Binary64.Ratio.round ⟨x.num.natAbs * 100, x.den⟩
  let digits := Decimal.withPoint (Decimal.digitChars hundredths) 2
  String.ofList (if x < 0 then '-' :: digits else digits)

end Exact

-- sums start from this zero wherever they are written, and not from that of the amounts below
instance Exact.zero : Zero ℚ := MulZeroClass.toZero

instance : Amount ℚ where
  decLT := inferInstance
  decLE := inferInstance
  ofWeight n := (n.toNat : ℚ)
  isFinite _ := true
  isZero x := decide (x = 0)
  ranksUpTo x y := decide (x ≤ y)
  plain := Exact.plain
  rounded := Exact.rounded

namespace Amount

theorem headroom_eq_max (limit used : ℚ) : headroom limit used = max (limit - used) 0 := by
  simp only [headroom]
  by_cases h : 0 < limit - used
  · rw [if_pos h, max_eq_left h.le]
  · rw [if_neg h, max_eq_right (not_lt.mp h)]

theorem smaller_eq_min (x y : ℚ) : smaller x y = min x y := by
  unfold smaller
  by_cases h : y < x
  · rw [if_pos h, min_eq_right h.le]
  · rw [if_neg h, min_eq_left (not_lt.mp h)]

/-- Amounts that lose nothing in a sum: whatever something is added to grows by it. -/
structure AddsUp (α : Type) [Amount α] : Prop where
  lt_irrefl : ∀ x : α, ¬ x < x
  lt_trans : ∀ x y z : α, x < y → y < z → x < z
  lt_add : ∀ x delta : α, 0 < delta → x < x + delta

theorem addsUp_rat : AddsUp ℚ where
  lt_irrefl := fun x => (lt_self_iff_false x).mp
  lt_trans _ _ _ := LT.lt.trans
  lt_add _ _ := lt_add_of_pos_right _

/-- Adding amounts of more than nothing, one or several of them, makes a sum grow. -/
theorem AddsUp.lt_foldl {α : Type} [Amount α] (h : AddsUp α) {deltas : List α}
    (hpos : ∀ delta ∈ deltas, 0 < delta) (hne : deltas ≠ []) :
    ∀ x : α, x < deltas.foldl (· + ·) x := by
  induction deltas with
  | nil => exact absurd rfl hne
  | cons delta rest ih =>
    intro x
    obtain ⟨hdelta, hrest⟩ := List.forall_mem_cons.mp hpos
    have hfirst : x < x + delta := h.lt_add x delta hdelta
    by_cases hmore : rest = []
    · rw [hmore]
      exact hfirst
    · exact h.lt_trans _ _ _ hfirst (ih hrest hmore (x + delta))

/-- A reward within the headroom of a limit takes the counter no further than the limit. -/
theorem used_add_le_limit {limit used reward : ℚ} (hpos : 0 < headroom limit used)
    (hle : reward ≤ headroom limit used) : used + reward ≤ limit := by
  rw [headroom_eq_max] at hpos hle
  have hrest : 0 < limit - used := by simpa using hpos
  rw [max_eq_left hrest.le] at hle
  linarith

end Amount

end CardRewards
