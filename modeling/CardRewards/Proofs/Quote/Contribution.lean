import CardRewards.Quote.Contribution

/-!
# The rules behind charges

A position of a card charges a counter only if it holds a rule whose gates let it apply, and only
three kinds of rules charge anything: flat rules under a cap, tiered rules and observers
(`contribution_cases`). From that follows, for each sort of charge, when it is made and what it
carries: `rewardCharge_eq_some_iff` for caps on rewards, `spendingCharge_eq_some_iff` for caps on
spending, `tierCharge_eq_some_iff` for the tier program, `missionTag_eq_some_iff` for missions.

A reward that is charged to a cap is more than nothing and no more than the cap left (`Grants`).
-/

namespace CardRewards

namespace Contribution

variable {α : Type}

/-- A contribution that charges nothing. It may have a line all the same. -/
structure Uncharged (c : Contribution α) : Prop where
  reward : c.rewardCharge = none
  spending : c.spendingCharge = none
  tier : c.tierCharge = none
  mission : c.missionTag = none

theorem uncharged_nothing : (nothing : Contribution α).Uncharged := ⟨rfl, rfl, rfl, rfl⟩

theorem uncharged_ofLine (line : QuoteLine α) : (ofLine line).Uncharged := ⟨rfl, rfl, rfl, rfl⟩

end Contribution

namespace Occasion

variable {α : Type} [Amount α] {o : Occasion α} {replaced : Bool} {r : Rule α}
  {position : String × Option (Rule α)}

/-! ## The kinds of rules that charge -/

/-- The contributions that may charge something, each with the kind of rule that it comes from. -/
inductive Charging (o : Occasion α) (r : Rule α) : Contribution α → Prop
  | rewardCapped (composition : Composition) (rate : α) (cap : Cap α)
      (effect : r.effect = .flat composition rate (some cap)) (mode : cap.mode = .reward)
      (hits : o.hits r = true) : Charging o r (o.rewardCapped r rate cap)
  | spendingCapped (composition : Composition) (rate : α) (cap : Cap α)
      (effect : r.effect = .flat composition rate (some cap)) (mode : cap.mode = .spending)
      (hits : o.hits r = true) : Charging o r (o.spendingCapped r rate cap)
  | tiered (effect : r.effect = .tiered) : Charging o r (o.tiered r)
  | observer (mission : String) (effect : r.effect = .observer mission) :
      Charging o r
        { Contribution.nothing with missionTag := some ⟨mission, o.hitsOrOpen r⟩ }

/-- A rule with weights contributes nothing, or a line with its rate times a weight. -/
theorem flexible_cases (o : Occasion α) (r : Rule α) (rate : α) :
    o.flexible r rate = .nothing ∨
      ∃ (weight : UInt32) (note : String),
        o.flexible r rate = .ofLine (r.noted .active (Amount.ofWeight weight * rate) note) := by
  unfold flexible
  split
  next => exact .inl rfl
  next =>
    split
    next => exact .inl rfl
    next =>
      dsimp only
      split
      next => exact .inl rfl
      next => exact .inr ⟨_, _, rfl⟩

/-- How a tiered rule ends: it does not apply, there is no row for the level, or the row of the level
decides. -/
inductive Tiering (o : Occasion α) (r : Rule α) : Contribution α → Prop
  | nothing : Tiering o r .nothing
  | lacking (note : String) (level : o.settings.tierLevel ≠ 0) (hits : o.hitsOrOpen r = true)
      (row : ∀ program ∈ o.book.scheme.tierProgram, program.row? o.settings.tierLevel = none) :
      Tiering o r (.ofLine (r.noted .unsupported 0 note))
  | granting (program : TierProgram α) (row : TierLevel α) (level : o.settings.tierLevel ≠ 0)
      (hits : o.hitsOrOpen r = true) (offered : o.book.scheme.tierProgram = some program)
      (found : program.row? o.settings.tierLevel = some row) :
      Tiering o r (o.tierRow r program row)

theorem tiering (o : Occasion α) (r : Rule α) : o.Tiering r (o.tiered r) := by
  unfold tiered
  split
  next => exact .nothing
  next level =>
    split
    next => exact .nothing
    next hits =>
      have hits : o.hitsOrOpen r = true := by simpa using hits
      split
      next hprogram => exact .lacking _ level hits (by simp [hprogram])
      next program hprogram =>
        split
        next hrow => exact .lacking _ level hits (by simp [hprogram, hrow])
        next row hrow => exact .granting program row level hits hprogram hrow

theorem uncharged_flexible (o : Occasion α) (r : Rule α) (rate : α) :
    (o.flexible r rate).Uncharged := by
  rcases o.flexible_cases r rate with heq | ⟨weight, note, heq⟩
  · rw [heq]
    exact Contribution.uncharged_nothing
  · rw [heq]
    exact Contribution.uncharged_ofLine _

theorem uncharged_fixedBonus (o : Occasion α) (r : Rule α) (rate units : α) :
    (o.fixedBonus r rate units).Uncharged := by
  unfold fixedBonus
  split
  next => exact Contribution.uncharged_ofLine _
  next => exact Contribution.uncharged_nothing

/-- A rule that applies charges nothing or is of a kind that charges. -/
theorem applied_cases (o : Occasion α) (replaced : Bool) (r : Rule α) :
    (o.applied replaced r).Uncharged ∨ o.Charging r (o.applied replaced r) := by
  unfold applied
  split
  next composition rate cap effect =>
    by_cases hits : o.hits r = true
    · rw [if_pos hits]
      cases cap with
      | none => exact .inl (Contribution.uncharged_ofLine _)
      | some cap =>
        cases mode : cap.mode with
        | reward =>
          simp only [flat, mode]
          exact .inr (.rewardCapped composition rate cap effect mode hits)
        | spending =>
          simp only [flat, mode]
          exact .inr (.spendingCapped composition rate cap effect mode hits)
    · rw [if_neg hits]
      exact .inl Contribution.uncharged_nothing
  next =>
    split
    next => exact .inl Contribution.uncharged_nothing
    next => exact .inl (Contribution.uncharged_ofLine _)
  next effect => exact .inr (.tiered effect)
  next => exact .inl (uncharged_flexible o r _)
  next => exact .inl (uncharged_fixedBonus o r _ _)
  next mission effect => exact .inr (.observer mission effect)
  next => exact .inl Contribution.uncharged_nothing

/-- What a position contributes: no charge, or what a rule whose gates let it apply may charge. -/
theorem contribution_cases (o : Occasion α) (replaced : Bool)
    (position : String × Option (Rule α)) :
    (o.contribution replaced position).Uncharged ∨
      ∃ r, position.2 = some r ∧ o.gateState r = .passed ∧
        o.Charging r (o.contribution replaced position) := by
  unfold contribution
  split
  next r hr =>
    unfold ruleContribution
    split
    next => exact .inl (Contribution.uncharged_ofLine _)
    next =>
      split
      next => exact .inl Contribution.uncharged_nothing
      next => exact .inl (Contribution.uncharged_ofLine _)
      next passed =>
        rcases applied_cases o replaced r with huncharged | hcharging
        · exact .inl huncharged
        · exact .inr ⟨r, hr, passed, hcharging⟩
  next => exact .inl (Contribution.uncharged_ofLine _)

/-- A supported rule whose gates let it apply contributes what it does. -/
theorem contribution_of_passed (hr : position.2 = some r) (hdefect : r.defect? = none)
    (passed : o.gateState r = .passed) :
    o.contribution replaced position = o.applied replaced r := by
  simp [contribution, hr, ruleContribution, hdefect, passed]

/-- What a cap in force leaves: of rewards, or of spending. -/
def capHeadroom (o : Occasion α) (cap : Cap α) : α :=
  match cap.mode with
  | .reward => o.rewardHeadroom cap
  | .spending => Amount.headroom cap.limit (o.ledger.get cap.key)

theorem capHeadroom_of_reward {cap : Cap α} (mode : cap.mode = .reward) :
    o.capHeadroom cap = o.rewardHeadroom cap := by
  rw [capHeadroom, mode]

theorem capHeadroom_of_spending {cap : Cap α} (mode : cap.mode = .spending) :
    o.capHeadroom cap = Amount.headroom cap.limit (o.ledger.get cap.key) := by
  rw [capHeadroom, mode]

/-! ## Caps on rewards -/

/-- The reward that a rate earns under a cap on rewards: all of it, or what the cap leaves. -/
def rewardGranted (o : Occasion α) (rate : α) (cap : Cap α) : α :=
  Amount.smaller (o.amount * rate) (o.rewardHeadroom cap)

theorem rewardCharge_rewardCapped (o : Occasion α) (r : Rule α) (rate : α) (cap : Cap α) :
    (o.rewardCapped r rate cap).rewardCharge =
      if o.rewardHeadroom cap ≤ 0 then none
      else if 0 < o.rewardGranted rate cap then
        some (cap.key, cap.secondary.map (·.key), o.rewardGranted rate cap)
      else none := by
  simp only [rewardCapped]
  by_cases hrest : o.rewardHeadroom cap ≤ 0
  · rw [if_pos hrest, if_pos hrest]
    rfl
  · rw [if_neg hrest, if_neg hrest]
    by_cases hfull : o.rewardHeadroom cap < o.amount * rate
    · rw [if_pos hfull, rewardGranted, Amount.smaller, if_pos hfull]
    · rw [if_neg hfull, rewardGranted, Amount.smaller, if_neg hfull]

/-- A cap on rewards is all that a rule under it charges. -/
theorem charges_rewardCapped (o : Occasion α) (r : Rule α) (rate : α) (cap : Cap α) :
    (o.rewardCapped r rate cap).spendingCharge = none ∧
      (o.rewardCapped r rate cap).tierCharge = none ∧
      (o.rewardCapped r rate cap).missionTag = none := by
  simp only [rewardCapped]
  split
  next => exact ⟨rfl, rfl, rfl⟩
  next => split <;> exact ⟨rfl, rfl, rfl⟩

/-- A rule grants a reward that is charged to its cap. -/
structure Grants (o : Occasion α) (r : Rule α) (rate : α) (cap : Cap α) (reward : α) : Prop where
  effect : ∃ composition, r.effect = .flat composition rate (some cap)
  mode : cap.mode = .reward
  passed : o.gateState r = .passed
  hits : o.hits r = true
  headroom : ¬ o.rewardHeadroom cap ≤ 0
  reward_eq : reward = o.rewardGranted rate cap
  pos : 0 < reward

/-! ## Caps on spending -/

/-- A rule earns its rate on spending that is charged to its cap. -/
structure Counts (o : Occasion α) (r : Rule α) (rate : α) (cap : Cap α) : Prop where
  effect : ∃ composition, r.effect = .flat composition rate (some cap)
  mode : cap.mode = .spending
  passed : o.gateState r = .passed
  hits : o.hits r = true
  headroom : ¬ Amount.headroom cap.limit (o.ledger.get cap.key) ≤ 0

theorem spendingCharge_spendingCapped (o : Occasion α) (r : Rule α) (rate : α) (cap : Cap α) :
    (o.spendingCapped r rate cap).spendingCharge =
      if Amount.headroom cap.limit (o.ledger.get cap.key) ≤ 0 then none else some cap.key := by
  simp only [spendingCapped]
  split
  next => rfl
  next => split <;> rfl

/-- A cap on spending is all that a rule under it charges. -/
theorem charges_spendingCapped (o : Occasion α) (r : Rule α) (rate : α) (cap : Cap α) :
    (o.spendingCapped r rate cap).rewardCharge = none ∧
      (o.spendingCapped r rate cap).tierCharge = none ∧
      (o.spendingCapped r rate cap).missionTag = none := by
  simp only [spendingCapped]
  split
  next => exact ⟨rfl, rfl, rfl⟩
  next => split <;> exact ⟨rfl, rfl, rfl⟩

/-! ## Tiers -/

theorem charges_tierRow (o : Occasion α) (r : Rule α) (program : TierProgram α)
    (row : TierLevel α) :
    (o.tierRow r program row).rewardCharge = none ∧
      (o.tierRow r program row).spendingCharge = none ∧
      (o.tierRow r program row).missionTag = none := by
  simp only [tierRow]
  split
  next => exact ⟨rfl, rfl, rfl⟩
  next => split <;> exact ⟨rfl, rfl, rfl⟩

/-- A tiered rule charges nothing but the tier program. -/
theorem charges_tiered (o : Occasion α) (r : Rule α) :
    (o.tiered r).rewardCharge = none ∧ (o.tiered r).spendingCharge = none ∧
      (o.tiered r).missionTag = none := by
  have htiering := o.tiering r
  generalize o.tiered r = c at htiering ⊢
  cases htiering with
  | nothing => exact ⟨rfl, rfl, rfl⟩
  | lacking => exact ⟨rfl, rfl, rfl⟩
  | granting program row => exact charges_tierRow o r program row

/-- The reward that a row of the tier program grants: all that its rate earns, or what its limit
leaves. -/
def tierGranted (o : Occasion α) (program : TierProgram α) (row : TierLevel α) : α :=
  let rest := Amount.headroom row.cap (o.ledger.get (.tierReward program.id))
  if rest ≤ 0 then 0 else Amount.smaller (o.amount * row.rate) rest

/-- What a purchase means for the tier program under a row of it. -/
def tierChargeOf (o : Occasion α) (program : TierProgram α) (row : TierLevel α) : TierCharge α :=
  ⟨program.id, o.tierGranted program row,
    o.book.scheme.hierarchy.isMatch [program.privilegedCategory] o.category⟩

theorem tierCharge_tierRow (o : Occasion α) (r : Rule α) (program : TierProgram α)
    (row : TierLevel α) :
    (o.tierRow r program row).tierCharge = some (o.tierChargeOf program row) := by
  simp only [tierRow, tierChargeOf, tierGranted, Amount.smaller]
  split
  next => rfl
  next => split <;> rfl

/-- A rule grants by a row of the tier program. -/
structure Tiers (o : Occasion α) (r : Rule α) (program : TierProgram α) (row : TierLevel α) :
    Prop where
  effect : r.effect = .tiered
  passed : o.gateState r = .passed
  level : o.settings.tierLevel ≠ 0
  hits : o.hitsOrOpen r = true
  offered : o.book.scheme.tierProgram = some program
  row : program.row? o.settings.tierLevel = some row

theorem Tiers.tiered_eq {program : TierProgram α} {row : TierLevel α} (h : o.Tiers r program row) :
    o.tiered r = o.tierRow r program row := by
  simp [tiered, h.level, h.hits, h.offered, h.row]

/-- A tiered rule charges the tier program only by a row of it. -/
theorem tiers_of_tierCharge_tiered {charge : TierCharge α} (effect : r.effect = .tiered)
    (passed : o.gateState r = .passed) (h : (o.tiered r).tierCharge = some charge) :
    ∃ program row, o.Tiers r program row := by
  have htiering := o.tiering r
  generalize o.tiered r = c at h htiering
  cases htiering with
  | nothing => exact nomatch h
  | lacking => exact nomatch h
  | granting program row level hits offered found =>
    exact ⟨program, row, effect, passed, level, hits, offered, found⟩

/-! ## When a position charges -/

/-- A flat rule whose gates let it apply contributes what its cap makes of its rate. -/
theorem contribution_of_flat {composition : Composition} {rate : α} {cap : Cap α}
    (hr : position.2 = some r) (effect : r.effect = .flat composition rate (some cap))
    (passed : o.gateState r = .passed) (hits : o.hits r = true) :
    o.contribution replaced position =
      match cap.mode with
      | .reward => o.rewardCapped r rate cap
      | .spending => o.spendingCapped r rate cap := by
  rw [contribution_of_passed hr (by simp [Rule.defect?, effect]) passed]
  cases hmode : cap.mode <;> simp only [applied, effect, hits, if_true, flat, hmode]

theorem Grants.contribution_eq {rate reward : α} {cap : Cap α} (h : o.Grants r rate cap reward)
    (hr : position.2 = some r) :
    o.contribution replaced position = o.rewardCapped r rate cap := by
  obtain ⟨composition, effect⟩ := h.effect
  rw [contribution_of_flat hr effect h.passed h.hits, h.mode]

theorem Counts.contribution_eq {rate : α} {cap : Cap α} (h : o.Counts r rate cap)
    (hr : position.2 = some r) :
    o.contribution replaced position = o.spendingCapped r rate cap := by
  obtain ⟨composition, effect⟩ := h.effect
  rw [contribution_of_flat hr effect h.passed h.hits, h.mode]

theorem Tiers.ruleContribution_eq {program : TierProgram α} {row : TierLevel α}
    (h : o.Tiers r program row) (replaced : Bool) :
    o.ruleContribution replaced r = o.tierRow r program row := by
  have hdefect : r.defect? = none := by simp [Rule.defect?, h.effect]
  simp only [ruleContribution, hdefect, h.passed, applied, h.effect]
  exact h.tiered_eq

theorem Tiers.contribution_eq {program : TierProgram α} {row : TierLevel α}
    (h : o.Tiers r program row) (hr : position.2 = some r) :
    o.contribution replaced position = o.tierRow r program row := by
  rw [contribution, hr]
  exact h.ruleContribution_eq replaced

/-- A position charges a cap on rewards exactly if its rule grants a reward under it. -/
theorem rewardCharge_eq_some_iff {charge : CounterKey × Option CounterKey × α} :
    (o.contribution replaced position).rewardCharge = some charge ↔
      ∃ r rate cap reward, position.2 = some r ∧ o.Grants r rate cap reward ∧
        charge = (cap.key, cap.secondary.map (·.key), reward) := by
  constructor
  · intro h
    rcases o.contribution_cases replaced position with huncharged | ⟨r, hr, passed, hcharging⟩
    · rw [huncharged.reward] at h
      exact nomatch h
    -- the kinds of rules that charge something else are ruled out by what they charge
    generalize o.contribution replaced position = c at h hcharging
    cases hcharging with
    | rewardCapped composition rate cap effect mode hits =>
      rw [rewardCharge_rewardCapped] at h
      split at h
      next => exact nomatch h
      next headroom =>
        split at h
        next pos =>
          exact ⟨r, rate, cap, _, hr,
            ⟨⟨composition, effect⟩, mode, passed, hits, headroom, rfl, pos⟩,
            (Option.some.inj h).symm⟩
        next => exact nomatch h
    | spendingCapped composition rate cap =>
      rw [(o.charges_spendingCapped r rate cap).1] at h
      exact nomatch h
    | tiered =>
      rw [(o.charges_tiered r).1] at h
      exact nomatch h
    | observer => exact nomatch h
  · rintro ⟨r, rate, cap, reward, hr, hgrants, rfl⟩
    have hpos : 0 < o.rewardGranted rate cap := hgrants.reward_eq ▸ hgrants.pos
    rw [hgrants.contribution_eq hr, rewardCharge_rewardCapped, if_neg hgrants.headroom,
      if_pos hpos, hgrants.reward_eq]

/-- A position charges a cap on spending exactly if its rule earns its rate under it. -/
theorem spendingCharge_eq_some_iff {key : CounterKey} :
    (o.contribution replaced position).spendingCharge = some key ↔
      ∃ r rate cap, position.2 = some r ∧ o.Counts r rate cap ∧ key = cap.key := by
  constructor
  · intro h
    rcases o.contribution_cases replaced position with huncharged | ⟨r, hr, passed, hcharging⟩
    · rw [huncharged.spending] at h
      exact nomatch h
    generalize o.contribution replaced position = c at h hcharging
    cases hcharging with
    | rewardCapped composition rate cap =>
      rw [(o.charges_rewardCapped r rate cap).1] at h
      exact nomatch h
    | spendingCapped composition rate cap effect mode hits =>
      rw [spendingCharge_spendingCapped] at h
      split at h
      next => exact nomatch h
      next headroom =>
        exact ⟨r, rate, cap, hr, ⟨⟨composition, effect⟩, mode, passed, hits, headroom⟩,
          (Option.some.inj h).symm⟩
    | tiered =>
      rw [(o.charges_tiered r).2.1] at h
      exact nomatch h
    | observer => exact nomatch h
  · rintro ⟨r, rate, cap, hr, hcounts, rfl⟩
    rw [hcounts.contribution_eq hr, spendingCharge_spendingCapped, if_neg hcounts.headroom]

/-- A position charges the tier program exactly if its rule grants by a row of it. -/
theorem tierCharge_eq_some_iff {charge : TierCharge α} :
    (o.contribution replaced position).tierCharge = some charge ↔
      ∃ r program row, position.2 = some r ∧ o.Tiers r program row ∧
        charge = o.tierChargeOf program row := by
  constructor
  · intro h
    rcases o.contribution_cases replaced position with huncharged | ⟨r, hr, passed, hcharging⟩
    · rw [huncharged.tier] at h
      exact nomatch h
    generalize o.contribution replaced position = c at h hcharging
    cases hcharging with
    | rewardCapped composition rate cap =>
      rw [(o.charges_rewardCapped r rate cap).2.1] at h
      exact nomatch h
    | spendingCapped composition rate cap =>
      rw [(o.charges_spendingCapped r rate cap).2.1] at h
      exact nomatch h
    | tiered effect =>
      obtain ⟨program, row, htiers⟩ := tiers_of_tierCharge_tiered effect passed h
      rw [htiers.tiered_eq, tierCharge_tierRow] at h
      exact ⟨r, program, row, hr, htiers, (Option.some.inj h).symm⟩
    | observer => exact nomatch h
  · rintro ⟨r, program, row, hr, htiers, rfl⟩
    rw [htiers.contribution_eq hr, tierCharge_tierRow]

/-- A position counts towards a mission exactly if it holds an observer of it whose gates let it
apply. -/
theorem missionTag_eq_some_iff {tag : MissionTag} :
    (o.contribution replaced position).missionTag = some tag ↔
      ∃ r mission, position.2 = some r ∧ r.effect = .observer mission ∧
        o.gateState r = .passed ∧ tag = ⟨mission, o.hitsOrOpen r⟩ := by
  constructor
  · intro h
    rcases o.contribution_cases replaced position with huncharged | ⟨r, hr, passed, hcharging⟩
    · rw [huncharged.mission] at h
      exact nomatch h
    generalize o.contribution replaced position = c at h hcharging
    cases hcharging with
    | rewardCapped composition rate cap =>
      rw [(o.charges_rewardCapped r rate cap).2.2] at h
      exact nomatch h
    | spendingCapped composition rate cap =>
      rw [(o.charges_spendingCapped r rate cap).2.2] at h
      exact nomatch h
    | tiered =>
      rw [(o.charges_tiered r).2.2] at h
      exact nomatch h
    | observer mission effect => exact ⟨r, mission, hr, effect, passed, (Option.some.inj h).symm⟩
  · rintro ⟨r, mission, hr, effect, passed, rfl⟩
    rw [contribution_of_passed hr (by simp [Rule.defect?, effect]) passed]
    simp [applied, effect]

end Occasion

end CardRewards
