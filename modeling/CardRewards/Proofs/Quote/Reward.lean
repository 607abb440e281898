import CardRewards.Proofs.Exact
import CardRewards.Proofs.Quote.Charges

/-!
# What positions pay

With exact amounts the reward of a quote is the sum of what the positions of the card pay, each the
rate of its line on the amount (`RuleBook.nativeValue_quote`). What a position under a limit pays
depends on what the limit leaves, in one way for all kinds of limits: nothing if nothing is left,
and else the full reward or the rest, whichever is smaller (`Amount.portion`).
-/

namespace CardRewards

namespace Amount

/-- What is granted of a full reward when so much is left. -/
def portion (full rest : ℚ) : ℚ := if rest ≤ 0 then 0 else min full rest

theorem portion_of_nonpos {full rest : ℚ} (h : rest ≤ 0) : portion full rest = 0 := if_pos h

theorem portion_of_pos {full rest : ℚ} (h : 0 < rest) : portion full rest = min full rest :=
  if_neg (not_le.mpr h)

/-- No more is granted when less than nothing is left than when nothing is. -/
theorem portion_max_zero (full rest : ℚ) : portion full (max rest 0) = portion full rest := by
  rcases le_or_gt rest 0 with h | h
  · rw [max_eq_right h, portion_of_nonpos h, portion_of_nonpos (le_refl 0)]
  · rw [max_eq_left h.le]

/-- Two rewards under a limit come to what they would have come to together, if the second one finds
what the first has left. -/
theorem portion_add {x y : ℚ} (hx : 0 < x) (hy : 0 < y) (rate rest : ℚ) :
    portion ((x + y) * rate) rest =
      portion (x * rate) rest + portion (y * rate) (rest - max (portion (x * rate) rest) 0) := by
  rcases le_or_gt rest 0 with hrest | hrest
  · rw [portion_of_nonpos hrest, portion_of_nonpos hrest, max_self, sub_zero,
      portion_of_nonpos hrest, add_zero]
  rw [portion_of_pos hrest, portion_of_pos hrest, add_mul]
  rcases le_or_gt rest (x * rate) with hreach | hwithin
  · -- the first reward reaches the limit, so the rate is more than nothing
    have hrate : 0 < rate := pos_of_mul_pos_right (hrest.trans_le hreach) hx.le
    have hsecond : 0 < y * rate := mul_pos hy hrate
    rw [min_eq_right hreach, max_eq_left hrest.le, sub_self, portion_of_nonpos (le_refl 0),
      add_zero, min_eq_right (by linarith)]
  · rw [min_eq_left hwithin.le]
    rcases le_total 0 rate with hrate | hrate
    · have hfirst : 0 ≤ x * rate := mul_nonneg hx.le hrate
      rw [max_eq_left hfirst, portion_of_pos (sub_pos.mpr hwithin), ← min_add_add_left,
        add_sub_cancel]
    · -- a rate below nothing uses up nothing, so both rewards find the same left
      have hfirst : x * rate ≤ 0 := mul_nonpos_of_nonneg_of_nonpos hx.le hrate
      have hsecond : y * rate ≤ 0 := mul_nonpos_of_nonneg_of_nonpos hy.le hrate
      rw [max_eq_right hfirst, sub_zero, portion_of_pos hrest, min_eq_left (hsecond.trans hrest.le),
        min_eq_left (by linarith)]

/-- The same of spending, all of which is charged also where it goes beyond the limit. -/
theorem portion_add_spending {y : ℚ} (hy : 0 < y) (x rest : ℚ) :
    portion (x + y) rest =
      portion x rest + portion y (rest - if rest ≤ 0 then 0 else x) := by
  rcases le_or_gt rest 0 with hrest | hrest
  · rw [if_pos hrest, sub_zero, portion_of_nonpos hrest, portion_of_nonpos hrest,
      portion_of_nonpos hrest, add_zero]
  rw [if_neg (not_le.mpr hrest), portion_of_pos hrest, portion_of_pos hrest]
  rcases le_or_gt rest x with hreach | hwithin
  · rw [min_eq_right hreach, portion_of_nonpos (sub_nonpos.mpr hreach), add_zero,
      min_eq_right (by linarith)]
  · rw [min_eq_left hwithin.le, portion_of_pos (sub_pos.mpr hwithin), ← min_add_add_left,
      add_sub_cancel]

/-- What a limit leaves after some more of it has been used. -/
theorem headroom_add {delta : ℚ} (hdelta : 0 ≤ delta) (limit used : ℚ) :
    headroom limit (used + delta) = max (headroom limit used - delta) 0 := by
  rw [headroom_eq_max, headroom_eq_max, ← sub_sub]
  rcases le_total 0 (limit - used) with h | h
  · rw [max_eq_left h]
  · rw [max_eq_right h, max_eq_right (by linarith), max_eq_right (by linarith)]

end Amount

namespace Contribution

/-- What a contribution pays on an amount: the rate of its line on it. -/
def pays (c : Contribution ℚ) (amount : ℚ) : ℚ :=
  match c.line with
  | some line => line.rate * amount
  | none => 0

theorem pays_of_line {c : Contribution ℚ} {line : QuoteLine ℚ} (h : c.line = some line)
    (amount : ℚ) : c.pays amount = line.rate * amount := by
  rw [pays, h]

/-- The same contribution pays on two amounts what it pays on each of them. -/
theorem pays_add (c : Contribution ℚ) (x y : ℚ) : c.pays (x + y) = c.pays x + c.pays y := by
  unfold pays
  cases c.line with
  | none => exact (add_zero 0).symm
  | some line => exact mul_add line.rate x y

/-- What a contribution pays that depends on what a limit leaves, if what it pays when nothing is
left, when not all of it fits and when all of it does is worked out in one way from what is
granted. -/
theorem pays_limited {exhausted partly full : Contribution ℚ} {amount rest total : ℚ}
    (f : ℚ → ℚ) (hexhausted : exhausted.pays amount = f 0) (hpartly : partly.pays amount = f rest)
    (hfull : full.pays amount = f total) :
    (if rest ≤ 0 then exhausted else if rest < total then partly else full).pays amount =
      f (Amount.portion total rest) := by
  by_cases hrest : rest ≤ 0
  · rw [if_pos hrest, Amount.portion_of_nonpos hrest, hexhausted]
  · rw [if_neg hrest, Amount.portion_of_pos (not_le.mp hrest)]
    by_cases hfits : rest < total
    · rw [if_pos hfits, min_eq_right hfits.le, hpartly]
    · rw [if_neg hfits, min_eq_left (not_lt.mp hfits), hfull]

end Contribution

/-! ## The reward of a quote -/

namespace Quote

theorem rateOf_eq_sum (lines : List (QuoteLine ℚ)) : rateOf lines = (lines.map (·.rate)).sum := by
  -- the sum may start anywhere, which is what the induction is about
  have hfold : ∀ start : ℚ, lines.foldl (fun sum line => sum + line.rate) start =
      start + (lines.map (·.rate)).sum := by
    induction lines with
    | nil => intro start; exact (add_zero start).symm
    | cons line rest ih =>
      intro start
      rw [List.foldl_cons, ih, List.map_cons, List.sum_cons, add_assoc]
  rw [rateOf, hfold]
  exact zero_add _

/-- The rates of the lines on an amount come to what the contributions pay. -/
theorem rateOf_linesOf_mul (cs : List (Contribution ℚ)) (amount : ℚ) :
    rateOf (linesOf cs) * amount = (cs.map (·.pays amount)).sum := by
  rw [rateOf_eq_sum]
  induction cs with
  | nil => exact zero_mul amount
  | cons c rest ih =>
    unfold linesOf at ih ⊢
    rw [List.map_cons, List.sum_cons, ← ih]
    cases hline : c.line with
    | none => rw [List.filterMap_cons_none hline, Contribution.pays, hline, zero_add]
    | some line =>
      rw [List.filterMap_cons_some hline, List.map_cons, List.sum_cons, add_mul,
        Contribution.pays_of_line hline]

end Quote

/-- The reward of a quote is the sum of what the positions of the card pay. -/
theorem RuleBook.nativeValue_quote (b : RuleBook ℚ) (card : Card) (amount : ℚ)
    (rawCategory : String) (mode : DisplayMode) (ledger : Ledger ℚ) (settings : Settings) :
    (b.quote card amount rawCategory mode ledger settings).nativeValue =
      ((b.contributions (b.occasion card amount rawCategory ledger settings) card).map
        (·.pays amount)).sum :=
  Quote.rateOf_linesOf_mul _ amount

/-! ## Limits -/

namespace Occasion

open Amount (portion portion_of_nonpos portion_of_pos headroom)

variable {o : Occasion ℚ}

/-- A rule under a cap on rewards pays what the cap leaves of its reward. -/
theorem pays_rewardCapped (hamount : 0 < o.amount) (r : Rule ℚ) (rate : ℚ) (cap : Cap ℚ) :
    (o.rewardCapped r rate cap).pays o.amount =
      portion (o.amount * rate) (o.rewardHeadroom cap) := by
  refine Contribution.pays_limited (fun granted => granted) (zero_mul o.amount) ?_ ?_
  · exact div_mul_cancel₀ _ hamount.ne'
  · exact mul_comm rate o.amount

/-- A cap on rewards is charged what is granted under it, if that is anything. -/
theorem rewardCharge_eq_portion (o : Occasion ℚ) (r : Rule ℚ) (rate : ℚ) (cap : Cap ℚ) :
    (o.rewardCapped r rate cap).rewardCharge =
      if 0 < portion (o.amount * rate) (o.rewardHeadroom cap) then
        some (cap.key, cap.secondary.map (·.key),
          portion (o.amount * rate) (o.rewardHeadroom cap))
      else none := by
  rw [rewardCharge_rewardCapped]
  by_cases hrest : o.rewardHeadroom cap ≤ 0
  · rw [if_pos hrest, portion_of_nonpos hrest, if_neg (lt_irrefl 0)]
  · rw [if_neg hrest, portion_of_pos (not_le.mp hrest), rewardGranted, Amount.smaller_eq_min]

/-- A rule under a cap on spending pays its rate on what the cap leaves of the amount. -/
theorem pays_spendingCapped (hamount : 0 < o.amount) (r : Rule ℚ) (rate : ℚ) (cap : Cap ℚ) :
    (o.spendingCapped r rate cap).pays o.amount =
      rate * portion o.amount (headroom cap.limit (o.ledger.get cap.key)) := by
  have hnone : (exhausted r cap).pays o.amount = rate * 0 := by
    rw [mul_zero]
    exact zero_mul o.amount
  refine Contribution.pays_limited (rate * ·) hnone ?_ rfl
  exact (div_mul_cancel₀ _ hamount.ne').trans (mul_comm _ rate)

theorem tierGranted_eq_portion (o : Occasion ℚ) (program : TierProgram ℚ) (row : TierLevel ℚ) :
    o.tierGranted program row = portion (o.amount * row.rate)
      (headroom row.cap (o.ledger.get (.tierReward program.id))) := by
  simp only [tierGranted, portion, Amount.smaller_eq_min]

/-- A rule that grants by a row of the tier program pays the reward that it charges. -/
theorem pays_tierRow (hamount : 0 < o.amount) (r : Rule ℚ) (program : TierProgram ℚ)
    (row : TierLevel ℚ) : (o.tierRow r program row).pays o.amount = o.tierGranted program row := by
  rw [tierGranted_eq_portion]
  refine Contribution.pays_limited (fun granted => granted) (zero_mul o.amount) ?_ ?_
  · exact div_mul_cancel₀ _ hamount.ne'
  · exact mul_comm row.rate o.amount

end Occasion

end CardRewards
