import CardRewards.Proofs.Posting
import CardRewards.Proofs.Quote.Charges
import CardRewards.Proofs.Rule.Check

/-!
# Limits on rewards

A cap on rewards sets one limit or two (`Cap.rewardLimits`), and the rule under it grants no more
than every one of them leaves. So the reward of a quote can be charged to each of its counters and
takes none of them beyond its limit: `Occasion.Grants.used_add_le`.

What an evaluated quote charges to caps altogether is nothing, its amount to a cap on spending, or
one reward to all limits of a cap on rewards: `RuleBook.capCharges_cases`.
-/

namespace CardRewards

section

variable {α : Type}

/-- The limits that a cap sets on rewards. -/
def Cap.rewardLimits (cap : Cap α) : List (Limit α) :=
  match cap.mode with
  | .reward => ⟨cap.key, cap.limit⟩ :: cap.secondary.toList
  | .spending => []

/-- The limits that are set on the rewards of a rule. -/
def Rule.rewardLimits (r : Rule α) : List (Limit α) :=
  match r.cap? with
  | some cap => cap.rewardLimits
  | none => []

/-- The counter of a limit on rewards is one that the rule uses for rewards. -/
theorem Rule.mem_capUses_of_mem_rewardLimits {r : Rule α} {limit : Limit α}
    (h : limit ∈ r.rewardLimits) : ⟨limit.key.text, .reward, r.id⟩ ∈ r.capUses := by
  unfold rewardLimits at h
  unfold capUses
  cases hcap : r.cap? with
  | none => simp [hcap] at h
  | some cap =>
    cases hmode : cap.mode with
    | spending => simp [hcap, Cap.rewardLimits, hmode] at h
    | reward =>
      simp only [hcap, Cap.rewardLimits, hmode, List.mem_cons, Option.mem_toList] at h
      rcases h with rfl | hsecond
      · simp [hmode]
      · simp [hmode, hsecond]

end

/-! ## What quotes charge to caps -/

namespace RuleBook

variable {α : Type} [Amount α] {b : RuleBook α} {card : Card} {amount : α} {rawCategory : String}
  {mode : DisplayMode} {ledger : Ledger α} {settings : Settings}

/-- What an evaluated quote charges to caps: nothing, the amount to a cap on spending, or a reward
to every limit of a cap on rewards. -/
theorem capCharges_cases (b : RuleBook α) (card : Card) (amount : α) (rawCategory : String)
    (mode : DisplayMode) (ledger : Ledger α) (settings : Settings) :
    let q := b.quote card amount rawCategory mode ledger settings
    let o := b.occasion card amount rawCategory ledger settings
    q.capCharges = [] ∨
      (∃ r ∈ b.rulesOf card, ∃ rate cap, o.Counts r rate cap ∧
        q.capCharges = [⟨cap.key, amount⟩]) ∨
      ∃ r ∈ b.rulesOf card, ∃ rate cap reward, o.Grants r rate cap reward ∧
        q.capCharges = cap.rewardLimits.map fun limit => ⟨limit.key, reward⟩ := by
  intro q o
  cases hcharge : q.capCharge with
  | none =>
    refine .inl ?_
    rw [Quote.capCharges, hcharge]
  | spending key =>
    obtain ⟨r, hr, rate, cap, hcounts, rfl⟩ := of_capCharge_spending hcharge
    refine .inr (.inl ⟨r, hr, rate, cap, hcounts, ?_⟩)
    rw [Quote.capCharges, hcharge]
    rfl
  | reward key second reward =>
    obtain ⟨r, hr, rate, cap, hgrants, rfl, rfl⟩ := of_capCharge_reward hcharge
    refine .inr (.inr ⟨r, hr, rate, cap, reward, hgrants, ?_⟩)
    rw [Quote.capCharges, hcharge]
    simp only [if_pos hgrants.pos, Cap.rewardLimits, hgrants.mode, List.map_cons]
    cases cap.secondary <;> rfl

end RuleBook

/-! ## Exact rewards -/

/-- No limit on rewards is negative. -/
theorem Rule.rewardLimit_nonneg {specs : List (RuleSpec ℚ)} {r : Rule ℚ} {limit : Limit ℚ}
    (hr : r ∈ (compileAll specs).values) (h : limit ∈ r.rewardLimits) : 0 ≤ limit.limit := by
  unfold rewardLimits at h
  split at h
  next cap hcap =>
    have hsound := sound_of_mem_compileAll hr hcap
    unfold Cap.rewardLimits at h
    split at h
    next =>
      rcases List.mem_cons.mp h with rfl | h
      · exact not_lt.mp hsound.limit.2
      · exact not_lt.mp (hsound.second limit (Option.mem_toList.mp h)).2
    next => simp at h
  next => simp at h

namespace Occasion

variable {o : Occasion ℚ} {r : Rule ℚ} {rate reward : ℚ} {cap : Cap ℚ} {limit : Limit ℚ}

/-- What caps leave of a reward is no more than what each limit leaves. -/
theorem rewardHeadroom_le (h : limit ∈ cap.rewardLimits) :
    o.rewardHeadroom cap ≤ Amount.headroom limit.limit (o.ledger.get limit.key) := by
  unfold Cap.rewardLimits at h
  unfold rewardHeadroom
  split at h
  next =>
    cases hsecond : cap.secondary with
    | none =>
      simp only [hsecond, Option.toList_none, List.mem_cons, List.not_mem_nil, or_false] at h
      rw [h]
    | some second =>
      simp only [hsecond, Option.toList_some, List.mem_cons, List.not_mem_nil, or_false] at h
      simp only [Amount.smaller_eq_min]
      rcases h with rfl | rfl
      · exact min_le_left _ _
      · exact min_le_right _ _
  next => simp at h

/-- A reward that is granted fits under every limit. -/
theorem Grants.used_add_le (h : o.Grants r rate cap reward) (hlimit : limit ∈ cap.rewardLimits) :
    o.ledger.get limit.key + reward ≤ limit.limit := by
  have hle := rewardHeadroom_le (o := o) hlimit
  have hpos : 0 < o.rewardHeadroom cap := not_le.mp h.headroom
  have hreward : reward ≤ o.rewardHeadroom cap := by
    rw [h.reward_eq, rewardGranted, Amount.smaller_eq_min]
    exact min_le_right _ _
  exact Amount.used_add_le_limit (hpos.trans_le hle) (hreward.trans hle)

end Occasion

/-- One amount charged to several counters reaches a counter as often as it is listed. -/
theorem Charge.total_map (keys : List CounterKey) (delta : ℚ) (key : CounterKey) :
    total (keys.map fun key => ⟨key, delta⟩) key = keys.count key * delta := by
  induction keys with
  | nil => simp
  | cons head rest ih =>
    rw [List.map_cons, total_cons, ih, List.count_cons]
    by_cases h : head = key
    · simp [h, add_mul, add_comm]
    · simp [h]

end CardRewards
