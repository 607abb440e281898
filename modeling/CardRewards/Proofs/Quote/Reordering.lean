import CardRewards.Proofs.Quote.Reward
import CardRewards.Scheme.Sample
import Mathlib.Algebra.BigOperators.Group.List.Basic

/-!
# The order of the rules

A card lists its rules in some order, and three parts of a quote depend on it: the rule that it
names as the one in place of the base rate, and the cap and the tier program that it charges are
those of the first rule each. None of the three is looked at for a rate. Another order therefore
changes the order of the lines and of the mission tags, and perhaps which of several rules is named
or which of several caps is charged, and nothing else: `quote_of_perm`.

The charge to the tier program stays the same because it does not depend on the rule that makes it
(`tierCharge_unique`). Sums of doubles do depend on the order, so all this is about exact amounts.
-/

namespace CardRewards

/-! ## Finding something in another order -/

section

variable {β γ : Type} {l l' : List β}

/-- Whether something is found does not depend on the order. -/
theorem isSome_findSome?_of_perm (h : l'.Perm l) (f : β → Option γ) :
    (l'.findSome? f).isSome = (l.findSome? f).isSome := by
  rw [Bool.eq_iff_iff, List.findSome?_isSome_iff, List.findSome?_isSome_iff]
  exact exists_congr fun x => and_congr_left' h.mem_iff

/-- Nor does what is found, if there is only one thing to be found. -/
theorem findSome?_eq_of_perm (h : l'.Perm l) {f : β → Option γ}
    (hunique : ∀ x ∈ l, ∀ y ∈ l, ∀ z ∈ f x, ∀ z' ∈ f y, z = z') :
    l'.findSome? f = l.findSome? f := by
  have hsome := isSome_findSome?_of_perm h f
  cases hl : l.findSome? f with
  | none =>
    rw [hl] at hsome
    exact Option.not_isSome_iff_eq_none.mp (by simp [hsome])
  | some z =>
    rw [hl] at hsome
    obtain ⟨z', hz'⟩ := Option.isSome_iff_exists.mp hsome
    obtain ⟨x, hx, hfx⟩ := List.exists_of_findSome?_eq_some hl
    obtain ⟨y, hy, hfy⟩ := List.exists_of_findSome?_eq_some hz'
    rw [hz', hunique y (h.mem_iff.mp hy) x hx z' hfy z hfx]

end

namespace Quote

variable {α : Type} {cs cs' : List (Contribution α)}

theorem isReward_capChargeOf :
    (capChargeOf cs).isReward = (cs.findSome? (·.rewardCharge)).isSome := by
  unfold capChargeOf
  cases cs.findSome? (·.rewardCharge) with
  | some charge => rfl
  | none => cases cs.findSome? (·.spendingCharge) <;> rfl

theorem isNone_capChargeOf :
    (capChargeOf cs).isNone =
      !((cs.findSome? (·.rewardCharge)).isSome || (cs.findSome? (·.spendingCharge)).isSome) := by
  unfold capChargeOf
  cases cs.findSome? (·.rewardCharge) with
  | some charge => rfl
  | none => cases cs.findSome? (·.spendingCharge) <;> rfl

/-- Which sort of cap is charged does not depend on the order of the contributions. -/
theorem capChargeOf_of_perm (h : cs'.Perm cs) :
    (capChargeOf cs').isNone = (capChargeOf cs).isNone ∧
      (capChargeOf cs').isReward = (capChargeOf cs).isReward := by
  have hreward := isSome_findSome?_of_perm h (·.rewardCharge)
  have hspending := isSome_findSome?_of_perm h (·.spendingCharge)
  rw [isNone_capChargeOf, isNone_capChargeOf, isReward_capChargeOf, isReward_capChargeOf, hreward,
    hspending]
  exact ⟨rfl, rfl⟩

/-- Exact rates come to the same sum in every order. -/
theorem rateOf_of_perm {lines lines' : List (QuoteLine ℚ)} (h : lines'.Perm lines) :
    rateOf lines' = rateOf lines := by
  rw [rateOf_eq_sum, rateOf_eq_sum]
  exact (h.map (·.rate)).sum_eq

end Quote

/-- All positions that charge the tier program charge it the same. -/
theorem Occasion.tierCharge_unique {α : Type} [Amount α] {o : Occasion α} {replaced : Bool}
    {position position' : String × Option (Rule α)} {charge charge' : TierCharge α}
    (h : (o.contribution replaced position).tierCharge = some charge)
    (h' : (o.contribution replaced position').tierCharge = some charge') : charge = charge' := by
  obtain ⟨_, program, row, -, htiers, rfl⟩ := Occasion.tierCharge_eq_some_iff.mp h
  obtain ⟨_, program', row', -, htiers', rfl⟩ := Occasion.tierCharge_eq_some_iff.mp h'
  obtain rfl := Option.some.inj (htiers.offered.symm.trans htiers'.offered)
  obtain rfl := Option.some.inj (htiers.row.symm.trans htiers'.row)
  rfl

namespace RuleBook

section

variable {α : Type} [Amount α] {b : RuleBook α} {o : Occasion α} {card : Card}
  {rules' : List String}

/-- Whether a rule takes the place of the base rate does not depend on the order. -/
theorem isSome_replacer?_of_perm (h : rules'.Perm card.rules) :
    (b.replacer? o { card with rules := rules' }).isSome = (b.replacer? o card).isSome := by
  have hrules : ((b.cardRules { card with rules := rules' }).filterMap (·.2)).Perm
      ((b.cardRules card).filterMap (·.2)) := (h.map _).filterMap _
  unfold replacer?
  rw [Bool.eq_iff_iff, List.find?_isSome, List.find?_isSome]
  exact exists_congr fun r => and_congr_left' hrules.mem_iff

/-- In another order the positions contribute the same. -/
theorem contributions_of_perm (h : rules'.Perm card.rules) :
    (b.contributions o { card with rules := rules' }).Perm (b.contributions o card) := by
  unfold contributions
  rw [isSome_replacer?_of_perm h]
  exact (h.map _).map _

end

/-- **The order of the rules does not change the reward.** With its rules in another order a card
has the same lines and mission tags in another order. It charges the same sort of cap or none, has
its base rate replaced or not as before, and is quoted the same in all else: rate, values,
conversion, and the charge to the tier program. -/
theorem quote_of_perm {card : Card} {rules' : List String} (h : rules'.Perm card.rules)
    (b : RuleBook ℚ) (amount : ℚ) (rawCategory : String) (mode : DisplayMode) (ledger : Ledger ℚ)
    (settings : Settings) :
    let q := b.quote card amount rawCategory mode ledger settings
    let q' := b.quote { card with rules := rules' } amount rawCategory mode ledger settings
    q'.lines.Perm q.lines ∧
    q'.missionTags.Perm q.missionTags ∧
    (q'.capCharge.isNone = q.capCharge.isNone ∧ q'.capCharge.isReward = q.capCharge.isReward) ∧
    q'.replacer.isSome = q.replacer.isSome ∧
    q' = { q with
      lines := q'.lines
      missionTags := q'.missionTags
      capCharge := q'.capCharge
      replacer := q'.replacer } := by
  intro q q'
  let o := b.occasion card amount rawCategory ledger settings
  have hparts : (b.contributions o { card with rules := rules' }).Perm (b.contributions o card) :=
    contributions_of_perm h
  have hlines : q'.lines.Perm q.lines := hparts.filterMap _
  refine ⟨hlines, hparts.filterMap _, Quote.capChargeOf_of_perm hparts, ?_, ?_⟩
  · show ((b.replacer? o { card with rules := rules' }).map (·.id)).isSome =
      ((b.replacer? o card).map (·.id)).isSome
    rw [Option.isSome_map, Option.isSome_map, isSome_replacer?_of_perm h]
  · -- the values are worked out from the rate, and all else from what the card says of itself
    have hrate : q'.totalRate = q.totalRate := Quote.rateOf_of_perm hlines
    have htier : q'.tierCharge = q.tierCharge := by
      refine findSome?_eq_of_perm hparts ?_
      intro c hc c' hc' charge hcharge charge' hcharge'
      obtain ⟨position, -, rfl⟩ := exists_position_of_mem_contributions hc
      obtain ⟨position', -, rfl⟩ := exists_position_of_mem_contributions hc'
      exact Occasion.tierCharge_unique hcharge hcharge'
    subst q q'
    simp only [quote, Quote.project] at hrate htier ⊢
    rw [hrate, htier]
    rfl

/-- Two rules on dining with a cap each: the order decides which of the caps is charged, and leaves
the rate alone. -/
theorem quote_of_perm_twoCaps :
    let b : RuleBook ℚ := ofScheme (Sample.single
      [.base "base" (1 / 100),
        (RuleSpec.flat "one" (1 / 20) ["dining"]).capped .reward "k" 300,
        (RuleSpec.flat "two" (1 / 10) ["dining"]).capped .reward "l" 50])
    let card : Card := .held "card" "cash" ["base", "one", "two"]
    let quote (rules : List String) :=
      b.quote { card with rules } 1000 "dining" .cash .empty .empty
    (quote ["base", "one", "two"]).capCharge = .reward (.configured "k") none 50 ∧
      (quote ["two", "base", "one"]).capCharge = .reward (.configured "l") none 50 ∧
      (quote ["two", "base", "one"]).lines.Perm (quote ["base", "one", "two"]).lines ∧
      (quote ["two", "base", "one"]).totalRate = (quote ["base", "one", "two"]).totalRate := by
  intro b card quote
  have hperm : ["two", "base", "one"].Perm card.rules := by decide
  obtain ⟨hlines, -, -, -, hrest⟩ := quote_of_perm hperm b 1000 "dining" .cash .empty .empty
  exact ⟨by decide +kernel, by decide +kernel, hlines, congrArg (·.totalRate) hrest⟩

end RuleBook

end CardRewards
