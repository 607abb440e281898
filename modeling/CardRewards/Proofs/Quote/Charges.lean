import CardRewards.Posting
import CardRewards.Proofs.Dict
import CardRewards.Proofs.Quote.Contribution
import CardRewards.Quote.Evaluate

/-!
# What an evaluated quote charges

A quote carries at most one charge to caps, one to the tier program and a tag for each observer.
Whatever it carries was contributed by a position of the card, so behind every charge of an
evaluated quote stands a rule of the rule book: `of_capCharge_reward`, `of_capCharge_spending`,
`of_tierCharge_quote`, `of_mem_missionTags`.
-/

namespace CardRewards

namespace Quote

variable {α : Type}

theorem capChargeOf_eq_reward_iff {parts : List (Contribution α)} {key : CounterKey}
    {second : Option CounterKey} {reward : α} :
    capChargeOf parts = .reward key second reward ↔
      parts.findSome? (·.rewardCharge) = some (key, second, reward) := by
  unfold capChargeOf
  cases hreward : parts.findSome? (·.rewardCharge) with
  | none =>
    cases parts.findSome? (·.spendingCharge) <;> simp
  | some charge =>
    obtain ⟨key', second', reward'⟩ := charge
    simp

theorem capChargeOf_eq_spending_iff {parts : List (Contribution α)} {key : CounterKey} :
    capChargeOf parts = .spending key ↔
      parts.findSome? (·.rewardCharge) = none ∧ parts.findSome? (·.spendingCharge) = some key := by
  unfold capChargeOf
  cases hreward : parts.findSome? (·.rewardCharge) with
  | none =>
    cases parts.findSome? (·.spendingCharge) <;> simp
  | some charge => simp

theorem capChargeOf_eq_none_iff {parts : List (Contribution α)} :
    capChargeOf parts = .none ↔
      parts.findSome? (·.rewardCharge) = none ∧ parts.findSome? (·.spendingCharge) = none := by
  unfold capChargeOf
  cases hreward : parts.findSome? (·.rewardCharge) with
  | none =>
    cases parts.findSome? (·.spendingCharge) <;> simp
  | some charge => simp

end Quote

namespace RuleBook

variable {α : Type} {b : RuleBook α} {card : Card} {amount : α} {rawCategory : String}
  {mode : DisplayMode} {ledger : Ledger α} {settings : Settings}

/-- The rules that a card lists, in order. -/
def rulesOf (b : RuleBook α) (card : Card) : List (Rule α) := (b.cardRules card).filterMap (·.2)

theorem mem_rulesOf {r : Rule α} :
    r ∈ b.rulesOf card ↔ ∃ position ∈ b.cardRules card, position.2 = some r :=
  List.mem_filterMap

/-- A rule at a position of a card stands in the rule book under the id listed there. -/
theorem rule?_of_mem_cardRules {position : String × Option (Rule α)}
    (h : position ∈ b.cardRules card) :
    position.1 ∈ card.rules ∧ b.rule? position.1 = position.2 := by
  obtain ⟨id, hid, rfl⟩ := List.mem_map.mp h
  exact ⟨hid, rfl⟩

/-- The rules of a card are those that stand in the rule book under the ids listed there. -/
theorem mem_rulesOf_iff_rule? {r : Rule α} :
    r ∈ b.rulesOf card ↔ ∃ id ∈ card.rules, b.rule? id = some r := by
  rw [mem_rulesOf]
  constructor
  · rintro ⟨position, hposition, hr⟩
    obtain ⟨hid, hrule⟩ := rule?_of_mem_cardRules hposition
    exact ⟨position.1, hid, hrule.trans hr⟩
  · rintro ⟨id, hid, hr⟩
    exact ⟨(id, b.rule? id), List.mem_map.mpr ⟨id, hid, rfl⟩, hr⟩

theorem mem_values_of_mem_rulesOf {r : Rule α} (h : r ∈ b.rulesOf card) : r ∈ b.rules.values := by
  obtain ⟨id, -, hr⟩ := mem_rulesOf_iff_rule?.mp h
  exact Dict.mem_values_of_get? hr

variable [Amount α]

theorem exists_position_of_mem_contributions {o : Occasion α} {c : Contribution α}
    (h : c ∈ b.contributions o card) :
    ∃ position ∈ b.cardRules card,
      c = o.contribution (b.replacer? o card).isSome position := by
  obtain ⟨position, hposition, rfl⟩ := List.mem_map.mp h
  exact ⟨position, hposition, rfl⟩

/-- What stands at a position is what the id listed there contributes. -/
theorem getElem?_contributions_of_id {n : Nat} {id : String} (hid : card.rules[n]? = some id)
    (o : Occasion α) :
    (b.contributions o card)[n]? =
      some (o.contribution (b.replacer? o card).isSome (id, b.rule? id)) := by
  unfold contributions cardRules
  rw [List.getElem?_map, List.getElem?_map, hid]
  rfl

/-- The line that a rule of a card contributes stands in the quote. -/
theorem line_mem_quote {r : Rule α} (hr : r ∈ b.rulesOf card) (amount : α) (rawCategory : String)
    (mode : DisplayMode) (ledger : Ledger α) (settings : Settings) :
    let o := b.occasion card amount rawCategory ledger settings
    ∀ line ∈ (o.ruleContribution (b.replacer? o card).isSome r).line,
      line ∈ (b.quote card amount rawCategory mode ledger settings).lines := by
  intro o line hline
  obtain ⟨position, hposition, hrule⟩ := mem_rulesOf.mp hr
  refine List.mem_filterMap.mpr ⟨_, List.mem_map.mpr ⟨position, hposition, rfl⟩, ?_⟩
  rw [Occasion.contribution, hrule]
  exact hline

/-- A reward charged by a quote is granted by a rule of the card. -/
theorem of_capCharge_reward {key : CounterKey} {second : Option CounterKey} {reward : α}
    (h : (b.quote card amount rawCategory mode ledger settings).capCharge =
      .reward key second reward) :
    ∃ r ∈ b.rulesOf card, ∃ rate cap,
      (b.occasion card amount rawCategory ledger settings).Grants r rate cap reward ∧
        key = cap.key ∧ second = cap.secondary.map (·.key) := by
  obtain ⟨c, hc, hcharge⟩ := List.exists_of_findSome?_eq_some (Quote.capChargeOf_eq_reward_iff.mp h)
  obtain ⟨position, hposition, rfl⟩ := exists_position_of_mem_contributions hc
  obtain ⟨r, rate, cap, reward', hr, hgrants, heq⟩ :=
    Occasion.rewardCharge_eq_some_iff.mp hcharge
  simp only [Prod.mk.injEq] at heq
  obtain ⟨hkey, hsecond, rfl⟩ := heq
  exact ⟨r, mem_rulesOf.mpr ⟨position, hposition, hr⟩, rate, cap, hgrants, hkey, hsecond⟩

/-- Spending charged by a quote to a cap earns its rate by a rule of the card. -/
theorem of_capCharge_spending {key : CounterKey}
    (h : (b.quote card amount rawCategory mode ledger settings).capCharge = .spending key) :
    ∃ r ∈ b.rulesOf card, ∃ rate cap,
      (b.occasion card amount rawCategory ledger settings).Counts r rate cap ∧ key = cap.key := by
  obtain ⟨c, hc, hcharge⟩ :=
    List.exists_of_findSome?_eq_some (Quote.capChargeOf_eq_spending_iff.mp h).2
  obtain ⟨position, hposition, rfl⟩ := exists_position_of_mem_contributions hc
  obtain ⟨r, rate, cap, hr, hcounts, hkey⟩ := Occasion.spendingCharge_eq_some_iff.mp hcharge
  exact ⟨r, mem_rulesOf.mpr ⟨position, hposition, hr⟩, rate, cap, hcounts, hkey⟩

/-- A tier charge of a quote is made by a row of the tier program, for a rule of the card. -/
theorem tiers_of_tierCharge {charge : TierCharge α}
    (h : (b.quote card amount rawCategory mode ledger settings).tierCharge = some charge) :
    let o := b.occasion card amount rawCategory ledger settings
    ∃ r ∈ b.rulesOf card, ∃ program row, o.Tiers r program row ∧
      charge = o.tierChargeOf program row := by
  obtain ⟨c, hc, hcharge⟩ := List.exists_of_findSome?_eq_some h
  obtain ⟨position, hposition, rfl⟩ := exists_position_of_mem_contributions hc
  obtain ⟨r, program, row, hr, htiers, heq⟩ := Occasion.tierCharge_eq_some_iff.mp hcharge
  exact ⟨r, mem_rulesOf.mpr ⟨position, hposition, hr⟩, program, row, htiers, heq⟩

/-- A tier charge of a quote is one to the tier program of the scheme. -/
theorem of_tierCharge_quote {charge : TierCharge α}
    (h : (b.quote card amount rawCategory mode ledger settings).tierCharge = some charge) :
    ∃ program, b.scheme.tierProgram = some program ∧ charge.programId = program.id := by
  obtain ⟨r, -, program, row, htiers, rfl⟩ := tiers_of_tierCharge h
  exact ⟨program, htiers.offered, rfl⟩

/-- A mission tag of a quote is set by an observer of the card. -/
theorem of_mem_missionTags {tag : MissionTag}
    (h : tag ∈ (b.quote card amount rawCategory mode ledger settings).missionTags) :
    ∃ r ∈ b.rulesOf card, r.observed? = some tag.missionId := by
  obtain ⟨c, hc, hcharge⟩ := List.mem_filterMap.mp h
  obtain ⟨position, hposition, rfl⟩ := exists_position_of_mem_contributions hc
  obtain ⟨r, mission, hr, effect, -, rfl⟩ := Occasion.missionTag_eq_some_iff.mp hcharge
  exact ⟨r, mem_rulesOf.mpr ⟨position, hposition, hr⟩, by simp [Rule.observed?, effect]⟩

end RuleBook

end CardRewards
