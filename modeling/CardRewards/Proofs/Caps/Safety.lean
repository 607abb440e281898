import CardRewards.Proofs.Caps.Limit
import CardRewards.Proofs.Quote.Counters
import CardRewards.Proofs.Session.Run
import CardRewards.Scheme.Sample

/-!
# Counters of rewards stay within their limits

A counter may be shared: by rules of one card and of several, as the first or the second counter of
their caps. Every rule that charges it grants no more than the counter leaves, a quote charges it
for one rule only, and no spending is added to it, because no checked rule uses it for spending. So
a counter that starts within a bound on all its limits stays within it, whatever the steps of a
session are, unless a step is stale: `counter_stays_within`.

What is asked of the counter is written down in `RuleBook.CapsRewards`. It is not one that cards,
missions or the tier program count in as well, and no cap names it twice, since a reward would then
be added to it twice.
-/

namespace CardRewards

namespace RuleBook

/-- The generated keys that a rule book writes to: those of its cards, of the missions that its
rules observe and of its tier program. -/
def generatedKeys {α : Type} (b : RuleBook α) : List CounterKey :=
  b.scheme.cards.map (fun card => .cardSpend card.id) ++
    (b.rules.values.filterMap (·.observed?)).flatMap
      (fun mission => [.missionTotal mission, .missionEligible mission]) ++
    b.scheme.tierProgram.toList.flatMap
      fun program => [.tierReward program.id, .tierSpend program.id]

/-- A counter of rewards, and a bound on the limits that rules set on it. -/
structure CapsRewards (b : RuleBook ℚ) (key : CounterKey) (bound : ℚ) : Prop where
  used : ∃ r ∈ b.rules.values, ∃ limit ∈ r.rewardLimits, limit.key = key
  bounded : ∀ r ∈ b.rules.values, ∀ limit ∈ r.rewardLimits, limit.key = key → limit.limit ≤ bound
  once : ∀ r ∈ b.rules.values, (r.rewardLimits.map (·.key)).count key ≤ 1
  apart : key ∉ b.generatedKeys

/-! ## Generated keys -/

section

variable {α : Type} {b : RuleBook α} {card : Card}

theorem tierKeys_subset_generatedKeys : b.tierKeys ⊆ b.generatedKeys :=
  fun _ h => List.mem_append_right _ h

/-- What booking a quote of a card writes to besides the counters of caps. -/
theorem generatedKeysOf_subset (listed : card ∈ b.scheme.cards) :
    b.generatedKeysOf card ⊆ b.generatedKeys := by
  intro key h
  rcases List.mem_append.mp h with h | hmission
  · rcases List.mem_cons.mp h with rfl | htier
    · exact List.mem_append_left _ (List.mem_append_left _ (List.mem_map_of_mem listed))
    · exact tierKeys_subset_generatedKeys htier
  · obtain ⟨mission, hmission, hkey⟩ := List.mem_flatMap.mp hmission
    obtain ⟨r, hr, hobserved⟩ := List.mem_filterMap.mp (List.mem_dedup.mp hmission)
    have hmem : mission ∈ b.rules.values.filterMap (·.observed?) :=
      List.mem_filterMap.mpr ⟨r, mem_values_of_mem_rulesOf hr, hobserved⟩
    exact List.mem_append_left _
      (List.mem_append_right _ (List.mem_flatMap.mpr ⟨mission, hmem, hkey⟩))

end

variable {card : Card} {amount : ℚ} {rawCategory : String} {mode : DisplayMode}
  {ledger : Ledger ℚ} {settings : Settings} {key : CounterKey} {bound : ℚ}

/-! ## One move -/

variable {scheme : Scheme ℚ}

theorem CapsRewards.bound_nonneg (h : (ofScheme scheme).CapsRewards key bound) : 0 ≤ bound := by
  obtain ⟨r, hr, limit, hlimit, hkey⟩ := h.used
  exact (Rule.rewardLimit_nonneg hr hlimit).trans (h.bounded r hr limit hlimit hkey)

/-- Booking what was evaluated keeps the counter within the bound. -/
theorem CapsRewards.add_total_le (h : (ofScheme scheme).CapsRewards key bound)
    (listed : card ∈ scheme.cards) (hle : ledger.get key ≤ bound) :
    ledger.get key +
      Charge.total ((ofScheme scheme).quote card amount rawCategory mode ledger settings).charges key
      ≤ bound := by
  rw [total_charges_of_cap fun hmem => h.apart (generatedKeysOf_subset listed hmem)]
  rcases (ofScheme scheme).capCharges_cases card amount rawCategory mode ledger settings with
    hnone | ⟨r, hr, rate, cap, hcounts, hspending⟩ | ⟨r, hr, rate, cap, reward, hgrants, hreward⟩
  · rw [hnone, Charge.total_nil, add_zero]
    exact hle
  · -- the counter of a cap on spending is another one, since no counter is in two modes
    obtain ⟨r', hr', limit, hlimit, rfl⟩ := h.used
    obtain ⟨composition, heffect⟩ := hcounts.effect
    have huse : ⟨cap.key.text, .spending, r.id⟩ ∈ r.capUses := by
      simp [Rule.capUses, Rule.cap?, heffect, hcounts.mode]
    have hne : cap.key ≠ limit.key := fun heq => by
      have := Rule.mode_eq_of_key_eq (mem_values_of_mem_rulesOf hr) hr' huse
        (Rule.mem_capUses_of_mem_rewardLimits hlimit) (congrArg CounterKey.text heq)
      simp at this
    rw [hspending, Charge.total_eq_zero (by simpa using hne), add_zero]
    exact hle
  · obtain ⟨composition, heffect⟩ := hgrants.effect
    have hlimits : r.rewardLimits = cap.rewardLimits := by
      simp [Rule.rewardLimits, Rule.cap?, heffect]
    have hmap : (cap.rewardLimits.map fun limit => (⟨limit.key, reward⟩ : Charge ℚ)) =
        (r.rewardLimits.map (·.key)).map fun key => ⟨key, reward⟩ := by
      rw [hlimits, List.map_map]
      rfl
    rw [hreward, hmap, Charge.total_map]
    -- the reward is added to the counter once if the cap has a limit on it, and else not at all
    have hlisted := mem_values_of_mem_rulesOf hr
    have honce := h.once r hlisted
    rcases Nat.le_one_iff_eq_zero_or_eq_one.mp honce with hcount | hcount
    · rw [hcount, Nat.cast_zero, zero_mul, add_zero]
      exact hle
    · have hmem : key ∈ r.rewardLimits.map (·.key) := by
        rw [← List.count_pos_iff, hcount]
        exact Nat.one_pos
      obtain ⟨limit, hlimit, rfl⟩ := List.mem_map.mp hmem
      rw [hcount, Nat.cast_one, one_mul]
      exact (hgrants.used_add_le (hlimits ▸ hlimit)).trans (h.bounded r hlisted limit hlimit rfl)

/-- No move takes the counter beyond the bound. -/
theorem CapsRewards.get_le_of_moves {p p' : Profile ℚ} {step : Step ℚ} {booked : Option (Quote ℚ)}
    (h : (ofScheme scheme).CapsRewards key bound)
    (hmoves : (ofScheme scheme).Moves p step booked p') (hle : p.ledger.get key ≤ bound) :
    p'.ledger.get key ≤ bound := by
  cases hmoves with
  | idle => exact hle
  | booked step card amount rawCategory mode listed vetted =>
    show (p.ledger.post _).get key ≤ bound
    rw [Ledger.get_post]
    exact h.add_total_le listed hle
  | chosen => exact hle
  | advanced program offered =>
    have htier : key ∉ (ofScheme scheme).tierKeys :=
      fun hmem => h.apart (tierKeys_subset_generatedKeys hmem)
    rw [tierKeys_eq (b := ofScheme scheme) offered, List.mem_pair, not_or] at htier
    show ((p.ledger.reset _).reset _).get key ≤ bound
    rw [Ledger.get_reset, if_neg htier.1, Ledger.get_reset, if_neg htier.2]
    exact hle
  | reset other =>
    show (p.ledger.reset other).get key ≤ bound
    rw [Ledger.get_reset]
    split
    next => exact h.bound_nonneg
    next => exact hle

end RuleBook

/-- **A counter of rewards stays within its limits**: if no limit that rules set on a counter is
above a bound and the counter starts within it, then it is within it after every step of a session
in which quotes are evaluated for the profile at hand, settings change, the customer moves up and
counters are set back, whether the store takes the profiles or not. -/
theorem Session.counter_stays_within {σ : Type} [ProfileStore σ ℚ] {scheme : Scheme ℚ}
    {key : CounterKey} {bound : ℚ} (hcaps : (RuleBook.ofScheme scheme).CapsRewards key bound)
    {s : Session σ ℚ} (hbook : s.book = .ofScheme scheme) {steps : List (Step ℚ)}
    (hfresh : ∀ step ∈ steps, step.isStale = false)
    (hstart : s.account.profile.ledger.get key ≤ bound) (n : ℕ) :
    (s.after (steps.take n)).account.profile.ledger.get key ≤ bound := by
  refine bookings_induction (P := fun _ p => p.ledger.get key ≤ bound) [] hbook
    (fun step hstep => hfresh step (List.mem_of_mem_take hstep)) ?_ hstart
  intro step _ qs p booked p' hmoves hle
  exact hcaps.get_le_of_moves hmoves hle

/-- One counter under two rules: the only one of the first, and the second one of the other. -/
def sharedCounter : Scheme ℚ :=
  Sample.single
    [(RuleSpec.flat "dining" (1 / 10) ["dining"]).capped .reward "k" 300,
      ((RuleSpec.flat "online" (1 / 10) ["online"]).capped .reward "own" 500).cappedAgain "k" 200]

/-- Purchases under both rules, each of them asking for more than the counter leaves in the end. -/
def sharedPurchases : List (Step ℚ) :=
  [.commitCard "card" ⟨"online", 1500, .cash⟩, .choose .empty,
    .commitCard "card" ⟨"dining", 5000, .cash⟩, .advanceTier,
    .commitCard "card" ⟨"online", 1500, .miles⟩]

/-- The shared counter is filled up to the larger of its two limits and stays there. -/
theorem Session.counter_stays_within_sharedCounter :
    let b : RuleBook ℚ := .ofScheme sharedCounter
    let s : Session (MemoryStore ℚ) ℚ := ⟨b, ⟨.empty, ⟨.empty⟩⟩, []⟩
    let counter (n : ℕ) := (s.after (sharedPurchases.take n)).account.profile.ledger.get
      (.configured "k")
    b.CapsRewards (.configured "k") 300 ∧ (∀ step ∈ sharedPurchases, step.isStale = false) ∧
      (∀ n, counter n ≤ 300) ∧
      [counter 0, counter 1, counter 3, counter 5] = [0, 150, 300, 300] := by
  intro b s counter
  have hcaps : b.CapsRewards (.configured "k") 300 :=
    ⟨by decide +kernel, by decide +kernel, by decide +kernel, by decide +kernel⟩
  have hfresh : ∀ step ∈ sharedPurchases, step.isStale = false := by decide +kernel
  refine ⟨hcaps, hfresh, ?_, by decide +kernel⟩
  exact Session.counter_stays_within hcaps rfl hfresh (by decide +kernel)

end CardRewards
