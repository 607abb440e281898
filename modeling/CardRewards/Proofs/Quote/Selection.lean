import CardRewards.Proofs.Number.Comparison
import CardRewards.Proofs.Quote.Multiplicity
import CardRewards.Proofs.Quote.Position

/-!
# Which charges a quote makes

The positions of a card may hold several rules that would charge a cap, and several that would
charge the tier program. A quote makes one charge of each sort, that of the first rule which has one
to make; to caps, a reward goes before spending wherever the rules stand. Observers count the
purchase each for itself.

A rule has a charge to make to a cap if it draws on it (`Occasion.DrawsOn`): its gates let it
apply, its category matches and the cap leaves something. On doubles the cap leaves something
exactly if what it leaves is more than nothing, since what it leaves is always a number
(`not_capHeadroom_le_zero_iff`). Which charges are made is `quote_selects`.
-/

namespace CardRewards

/-! ## What a cap leaves -/

namespace Amount

/-- What a limit leaves is a number: nothing, or more. -/
theorem not_headroom_le_zero_iff {limit used : Binary64} :
    ¬ headroom limit used ≤ 0 ↔ 0 < headroom limit used := by
  unfold headroom
  by_cases hrest : 0 < limit - used
  · simp only [if_pos hrest]
    exact iff_of_true (Binary64.not_le_zero_of_pos hrest) hrest
  · simp only [if_neg hrest]
    decide +kernel

theorem not_smaller_le_zero_iff {x y : Binary64} (hx : ¬ x ≤ 0 ↔ 0 < x) (hy : ¬ y ≤ 0 ↔ 0 < y) :
    ¬ smaller x y ≤ 0 ↔ 0 < smaller x y := by
  unfold smaller
  by_cases h : y < x
  · rw [if_pos h]
    exact hy
  · rw [if_neg h]
    exact hx

end Amount

namespace Occasion

theorem not_capHeadroom_le_zero_iff {o : Occasion Binary64} {cap : Cap Binary64} :
    ¬ o.capHeadroom cap ≤ 0 ↔ 0 < o.capHeadroom cap := by
  unfold capHeadroom
  cases cap.mode with
  | spending => exact Amount.not_headroom_le_zero_iff
  | reward =>
    unfold rewardHeadroom
    cases cap.secondary with
    | none => exact Amount.not_headroom_le_zero_iff
    | some second =>
      exact Amount.not_smaller_le_zero_iff Amount.not_headroom_le_zero_iff
        Amount.not_headroom_le_zero_iff

/-! ## What a rule charges -/

section

variable {α : Type} [Amount α] {o : Occasion α} {replaced : Bool} {r : Rule α}

/-- A flat rule draws on its cap: its gates let it apply, its category matches, and the cap
leaves something. -/
structure DrawsOn (o : Occasion α) (mode : CapMode) (r : Rule α) (rate : α) (cap : Cap α) :
    Prop where
  effect : ∃ composition, r.effect = .flat composition rate (some cap)
  mode_eq : cap.mode = mode
  passes : o.Passes r
  hits : o.hits r = true
  headroom : 0 < o.capHeadroom cap

/-- A rule has a reward to charge to a cap. -/
def ChargesReward (o : Occasion α) (r : Rule α)
    (charge : CounterKey × Option CounterKey × α) : Prop :=
  ∃ rate cap, o.DrawsOn .reward r rate cap ∧ 0 < o.rewardGranted rate cap ∧
    charge = (cap.key, cap.secondary.map (·.key), o.rewardGranted rate cap)

/-- A rule has spending to charge to a cap. -/
def ChargesSpending (o : Occasion α) (r : Rule α) (key : CounterKey) : Prop :=
  ∃ rate cap, o.DrawsOn .spending r rate cap ∧ key = cap.key

/-- A rule has something to charge to the tier program: it grants by a row there. -/
def ChargesTier (o : Occasion α) (r : Rule α) (charge : TierCharge α) : Prop :=
  ∃ program row, o.Tiers r program row ∧
    charge = ⟨program.id, o.tierGranted program row,
      o.book.scheme.hierarchy.isMatch [program.privilegedCategory] o.category⟩

theorem tierCharge_ruleContribution_eq_some_iff {charge : TierCharge α} :
    (o.ruleContribution replaced r).tierCharge = some charge ↔ o.ChargesTier r charge := by
  show (o.contribution replaced (r.id, some r)).tierCharge = some charge ↔ _
  rw [tierCharge_eq_some_iff]
  constructor
  · rintro ⟨_, program, row, ⟨⟩, htiers, hcharge⟩
    exact ⟨program, row, htiers, hcharge⟩
  · rintro ⟨program, row, htiers, hcharge⟩
    exact ⟨r, program, row, rfl, htiers, hcharge⟩

end

variable {o : Occasion Binary64} {replaced : Bool} {r : Rule Binary64} {rate reward : Binary64}
  {cap : Cap Binary64}

theorem grants_iff_drawsOn :
    o.Grants r rate cap reward ↔
      o.DrawsOn .reward r rate cap ∧ 0 < o.rewardGranted rate cap ∧
        reward = o.rewardGranted rate cap := by
  constructor
  · intro h
    refine ⟨⟨h.effect, h.mode, passes_iff.mpr h.passed, h.hits, ?_⟩, h.reward_eq ▸ h.pos,
      h.reward_eq⟩
    rw [← not_capHeadroom_le_zero_iff, capHeadroom_of_reward h.mode]
    exact h.headroom
  · rintro ⟨h, hpos, rfl⟩
    refine ⟨h.effect, h.mode_eq, passes_iff.mp h.passes, h.hits, ?_, rfl, hpos⟩
    rw [← capHeadroom_of_reward h.mode_eq, not_capHeadroom_le_zero_iff]
    exact h.headroom

theorem counts_iff_drawsOn : o.Counts r rate cap ↔ o.DrawsOn .spending r rate cap := by
  constructor
  · intro h
    refine ⟨h.effect, h.mode, passes_iff.mpr h.passed, h.hits, ?_⟩
    rw [← not_capHeadroom_le_zero_iff, capHeadroom_of_spending h.mode]
    exact h.headroom
  · intro h
    refine ⟨h.effect, h.mode_eq, passes_iff.mp h.passes, h.hits, ?_⟩
    rw [← capHeadroom_of_spending h.mode_eq, not_capHeadroom_le_zero_iff]
    exact h.headroom

theorem rewardCharge_ruleContribution_eq_some_iff
    {charge : CounterKey × Option CounterKey × Binary64} :
    (o.ruleContribution replaced r).rewardCharge = some charge ↔ o.ChargesReward r charge := by
  show (o.contribution replaced (r.id, some r)).rewardCharge = some charge ↔ _
  rw [rewardCharge_eq_some_iff]
  constructor
  · rintro ⟨_, rate, cap, reward, ⟨⟩, hgrants, rfl⟩
    obtain ⟨hdraws, hpos, rfl⟩ := grants_iff_drawsOn.mp hgrants
    exact ⟨rate, cap, hdraws, hpos, rfl⟩
  · rintro ⟨rate, cap, hdraws, hpos, rfl⟩
    exact ⟨r, rate, cap, _, rfl, grants_iff_drawsOn.mpr ⟨hdraws, hpos, rfl⟩, rfl⟩

theorem spendingCharge_ruleContribution_eq_some_iff {key : CounterKey} :
    (o.ruleContribution replaced r).spendingCharge = some key ↔ o.ChargesSpending r key := by
  show (o.contribution replaced (r.id, some r)).spendingCharge = some key ↔ _
  rw [spendingCharge_eq_some_iff]
  constructor
  · rintro ⟨_, rate, cap, ⟨⟩, hcounts, hkey⟩
    exact ⟨rate, cap, counts_iff_drawsOn.mp hcounts, hkey⟩
  · rintro ⟨rate, cap, hdraws, hkey⟩
    exact ⟨r, rate, cap, rfl, counts_iff_drawsOn.mpr hdraws, hkey⟩

end Occasion

/-! ## What a quote charges -/

namespace RuleBook

section

variable {α γ : Type} [Amount α] {b : RuleBook α} {o : Occasion α} {card : Card}
  {f : Contribution α → Option γ} {Q : Rule α → γ → Prop}

/-- The first charge of a sort is that of the first rule which has one to make. -/
theorem findSome?_contributions_iff
    (hnone : ∀ id, f (o.contribution (b.replacer? o card).isSome (id, none)) = none)
    (hf : ∀ r y, f (o.ruleContribution (b.replacer? o card).isSome r) = some y ↔ Q r y) :
    (∀ y, (b.contributions o card).findSome? f = some y ↔ FirstWith (b.rulesOf card) Q y) ∧
      ((b.contributions o card).findSome? f = none ↔ ∀ r ∈ b.rulesOf card, ∀ y, ¬ Q r y) := by
  rw [findSome?_contributions_rulesOf hnone]
  exact ⟨fun y => findSome?_eq_some_iff_firstWith hf, findSome?_eq_none_iff_forall hf⟩

end

/-- **Which charges a quote makes.** To caps: the reward of the first rule that earns one under a
cap on rewards, with the counters of the cap; if there is none, the spending of the first rule that
draws on a cap on spending; if there is none of these either, nothing. To the tier program: that of
the first tiered rule which has a row there, with no reward where the row leaves nothing. To
missions: a tag for every observer that its gates let apply, in order, eligible if the observer is
open to all categories or matches this one. -/
theorem quote_selects (b : RuleBook Binary64) (card : Card) (amount : Binary64)
    (rawCategory : String) (mode : DisplayMode) (ledger : Ledger Binary64) (settings : Settings) :
    let o := b.occasion card amount rawCategory ledger settings
    let q := b.quote card amount rawCategory mode ledger settings
    (∀ key second reward, q.capCharge = .reward key second reward ↔
      FirstWith (b.rulesOf card) o.ChargesReward (key, second, reward)) ∧
    (∀ key, q.capCharge = .spending key ↔
      (∀ r ∈ b.rulesOf card, ∀ charge, ¬ o.ChargesReward r charge) ∧
        FirstWith (b.rulesOf card) o.ChargesSpending key) ∧
    (q.capCharge = .none ↔
      (∀ r ∈ b.rulesOf card, ∀ charge, ¬ o.ChargesReward r charge) ∧
        ∀ r ∈ b.rulesOf card, ∀ key, ¬ o.ChargesSpending r key) ∧
    (∀ charge, q.tierCharge = some charge ↔ FirstWith (b.rulesOf card) o.ChargesTier charge) ∧
    (q.tierCharge = none ↔ ∀ r ∈ b.rulesOf card, ∀ charge, ¬ o.ChargesTier r charge) ∧
    (∀ program row, Amount.headroom row.cap (ledger.get (.tierReward program.id)) ≤ 0 →
      o.tierGranted program row = 0) ∧
    q.missionTags = (b.rulesOf card).filterMap o.tag? ∧
    ∀ r tag, o.tag? r = some tag ↔
      ∃ mission, r.effect = .observer mission ∧ o.Passes r ∧
        tag = ⟨mission, r.categories.isEmpty || o.hits r⟩ := by
  intro o q
  have hcap : q.capCharge = Quote.capChargeOf (b.contributions o card) := rfl
  obtain ⟨hreward, hnoReward⟩ :
      (∀ charge, (b.contributions o card).findSome? (·.rewardCharge) = some charge ↔ _) ∧ _ :=
    findSome?_contributions_iff (fun _ => rfl)
      fun _ _ => Occasion.rewardCharge_ruleContribution_eq_some_iff
  obtain ⟨hspending, hnoSpending⟩ :
      (∀ key, (b.contributions o card).findSome? (·.spendingCharge) = some key ↔ _) ∧ _ :=
    findSome?_contributions_iff (fun _ => rfl)
      fun _ _ => Occasion.spendingCharge_ruleContribution_eq_some_iff
  obtain ⟨hsome, hnone⟩ :
      (∀ charge, (b.contributions o card).findSome? (·.tierCharge) = some charge ↔ _) ∧ _ :=
    findSome?_contributions_iff (fun _ => rfl)
      fun _ _ => Occasion.tierCharge_ruleContribution_eq_some_iff
  refine ⟨fun key second reward => ?_, fun key => ?_, ?_, hsome, hnone, ?_,
    missionTags_quote .., fun r tag => ?_⟩
  · rw [hcap, Quote.capChargeOf_eq_reward_iff, hreward]
  · rw [hcap, Quote.capChargeOf_eq_spending_iff, hnoReward, hspending]
  · rw [hcap, Quote.capChargeOf_eq_none_iff, hnoReward, hnoSpending]
  · intro program row hexhausted
    exact if_pos hexhausted
  · rw [Occasion.tag?_eq_some_iff]
    refine exists_congr fun mission => ?_
    rw [Occasion.passes_iff]
    rfl

/-- At a restaurant the third rule charges its two caps, as the first has a cap on spending and that
of the second is used up; on a journey the first one charges its own. -/
theorem quote_selects_afterTwo :
    let b : RuleBook Binary64 := ofScheme (Sample.single
      [(RuleSpec.flat "both" (Sample.thousandths 10) ["dining", "travel"]).capped .spending "s"
          (Sample.whole 300),
        (RuleSpec.flat "used" (Sample.thousandths 50) ["dining"]).capped .reward "k"
          (Sample.whole 100),
        ((RuleSpec.flat "dining" (Sample.thousandths 20) ["dining"]).capped .reward "m"
          (Sample.whole 300)).cappedAgain "shared" (Sample.whole 200)])
    let card : Card := .held "card" "cash" ["both", "used", "dining"]
    let ledger : Ledger Binary64 := Ledger.empty.add (.configured "k") (Sample.whole 100)
    let quote (category : String) :=
      b.quote card (Sample.whole 1000) category .cash ledger .empty
    let charges (category : String) :=
      (b.occasion card (Sample.whole 1000) category ledger .empty).ChargesReward
    (quote "dining").capCharge =
        .reward (.configured "m") (some (.configured "shared")) (Sample.whole 20) ∧
      FirstWith (b.rulesOf card) (charges "dining")
        (.configured "m", some (.configured "shared"), Sample.whole 20) ∧
      (quote "travel").capCharge = .spending (.configured "s") ∧
      ∀ r ∈ b.rulesOf card, ∀ charge, ¬ charges "travel" r charge := by
  intro b card ledger quote charges
  have hdining : (quote "dining").capCharge =
      .reward (.configured "m") (some (.configured "shared")) (Sample.whole 20) := by
    decide +kernel
  have htravel : (quote "travel").capCharge = .spending (.configured "s") := by decide +kernel
  obtain ⟨hreward, -⟩ := quote_selects b card (Sample.whole 1000) "dining" .cash ledger .empty
  obtain ⟨-, hspending, -⟩ := quote_selects b card (Sample.whole 1000) "travel" .cash ledger .empty
  exact ⟨hdining, (hreward _ _ _).mp hdining, htravel, ((hspending _).mp htravel).1⟩

end RuleBook

end CardRewards
