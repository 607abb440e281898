import CardRewards.Audit
import CardRewards.Proofs.Number.Whole
import CardRewards.Proofs.Quote.Charges
import CardRewards.Proofs.Quote.Line
import CardRewards.Proofs.Rule.Cleared
import CardRewards.Scheme.Sample

/-!
# Rewards are not negative

On doubles, what is not at least zero is negative or no number at all. The numbers of a checked rule
are finite and not negative, a weight is a whole number, and what a limit leaves is never below
zero, whatever the ledger says. So no rate and no reward of such a rule is below zero, and none is
a `NaN`: where a zero could meet an infinity, one of the numbers is known to be finite.

The rows of the tier program are the one place where nothing is checked. A quote has a negative
rate, or a `NaN`, exactly if some tiered rule of the card applies by a row with such a rate, under a
limit that leaves something: `RuleBook.quote_nonneg_iff`.
-/

namespace CardRewards

/-! ## Limits -/

namespace Binary64

variable {x y limit used : Binary64}

theorem zero_le_zero : (0 : Binary64) ≤ 0 := by decide +kernel

/-- What passes the check of a specification is at least zero. -/
theorem zero_le_of_sound (h : Amount.isFinite x = true ∧ ¬ x < 0) : 0 ≤ x :=
  zero_le_of_not_lt h.1 h.2

theorem zero_le_headroom (limit used : Binary64) : 0 ≤ Amount.headroom limit used := by
  unfold Amount.headroom
  dsimp only
  split
  next hrest => exact zero_le_of_lt hrest
  next => exact zero_le_zero

/-- A limit that is not above zero leaves nothing. -/
theorem headroom_eq_zero (hlimit : ¬ 0 < limit) (hused : 0 ≤ used) :
    Amount.headroom limit used = 0 :=
  if_neg (not_zero_lt_sub hlimit hused)

theorem headroom_of_not_pos (h : ¬ 0 < Amount.headroom limit used) :
    Amount.headroom limit used ≤ 0 := by
  unfold Amount.headroom at h ⊢
  dsimp only at h ⊢
  split at h
  next hrest => exact absurd hrest h
  next hrest =>
    rw [if_neg hrest]
    exact zero_le_zero

theorem zero_le_smaller (hx : 0 ≤ x) (hy : 0 ≤ y) : 0 ≤ Amount.smaller x y := by
  unfold Amount.smaller
  split
  next => exact hy
  next => exact hx

end Binary64

open Binary64

/-! ## Contributions -/

namespace Contribution

/-- The rate and the rewards of a contribution are zero at least. -/
structure Nonneg (c : Contribution Binary64) : Prop where
  rate : ∀ line ∈ c.line, 0 ≤ line.rate
  capReward : ∀ charge ∈ c.rewardCharge, 0 ≤ charge.2.2
  tierReward : ∀ charge ∈ c.tierCharge, 0 ≤ charge.reward

/-- A contribution has neither a rate nor a reward. -/
structure GrantsNothing (c : Contribution Binary64) : Prop where
  rate : ∀ line ∈ c.line, line.rate = 0
  capReward : c.rewardCharge = none
  tierReward : ∀ charge ∈ c.tierCharge, charge.reward = 0

variable {line : QuoteLine Binary64}

theorem nonneg_nothing : (nothing : Contribution Binary64).Nonneg := ⟨nofun, nofun, nofun⟩

theorem nonneg_ofLine (h : 0 ≤ line.rate) : (ofLine line).Nonneg := by
  refine ⟨?_, nofun, nofun⟩
  rintro _ ⟨⟩
  exact h

theorem grantsNothing_ofLine (h : line.rate = 0) : (ofLine line).GrantsNothing := by
  refine ⟨?_, rfl, nofun⟩
  rintro _ ⟨⟩
  exact h

/-- A reward is charged to a cap only if it is above zero. -/
theorem nonneg_rewardCharge {key : CounterKey} {second : Option CounterKey} {reward : Binary64}
    (h : 0 ≤ line.rate) :
    { ofLine line with
      rewardCharge := if 0 < reward then some (key, second, reward) else none }.Nonneg := by
  refine ⟨(nonneg_ofLine h).rate, ?_, nofun⟩
  dsimp only
  split
  next hpos =>
    rintro _ ⟨⟩
    exact zero_le_of_lt hpos
  next => exact nofun

theorem nonneg_spendingCharge {key : CounterKey} (h : 0 ≤ line.rate) :
    { ofLine line with spendingCharge := some key }.Nonneg :=
  ⟨(nonneg_ofLine h).rate, nofun, nofun⟩

theorem nonneg_tierCharge {charge : TierCharge Binary64} (h : 0 ≤ line.rate)
    (hreward : 0 ≤ charge.reward) :
    { ofLine line with tierCharge := some charge }.Nonneg := by
  refine ⟨(nonneg_ofLine h).rate, nofun, ?_⟩
  rintro _ ⟨⟩
  exact hreward

end Contribution

open Contribution

namespace Occasion

variable {o : Occasion Binary64} {r : Rule Binary64} {rate : Binary64} {replaced : Bool}
  {program : TierProgram Binary64} {row : TierLevel Binary64}

/-! ## Flat rules -/

theorem zero_le_rewardHeadroom (o : Occasion Binary64) (cap : Cap Binary64) :
    0 ≤ o.rewardHeadroom cap := by
  unfold rewardHeadroom
  dsimp only
  split
  next => exact zero_le_smaller (zero_le_headroom ..) (zero_le_headroom ..)
  next => exact zero_le_headroom ..

theorem nonneg_rewardCapped (hamount : o.amount.IsPositive) (hrate : 0 ≤ rate) (r : Rule Binary64)
    (cap : Cap Binary64) : (o.rewardCapped r rate cap).Nonneg := by
  unfold rewardCapped
  dsimp only
  split
  next => exact nonneg_ofLine zero_le_zero
  next =>
    split
    next => exact nonneg_rewardCharge (hamount.zero_le_div (o.zero_le_rewardHeadroom cap))
    next => exact nonneg_rewardCharge hrate

theorem nonneg_spendingCapped (hamount : o.amount.IsPositive)
    (hrate : Amount.isFinite rate = true ∧ ¬ rate < 0) (r : Rule Binary64) (cap : Cap Binary64) :
    (o.spendingCapped r rate cap).Nonneg := by
  have hrest := zero_le_headroom cap.limit (o.ledger.get cap.key)
  unfold spendingCapped
  dsimp only
  split
  next => exact nonneg_ofLine zero_le_zero
  next =>
    split
    next hpart =>
      -- what is left is below the amount, so it is no infinity that a rate of zero could meet
      have hreward := zero_le_mul_of_isFinite hrest (zero_le_of_sound hrate)
        (isFinite_unpacked_of_lt hrest hpart) (isFinite_unpacked hrate.1)
      exact nonneg_spendingCharge (hamount.zero_le_div hreward)
    next => exact nonneg_spendingCharge (zero_le_of_sound hrate)

theorem nonneg_flat (hamount : o.amount.IsPositive)
    (hrate : Amount.isFinite rate = true ∧ ¬ rate < 0) (r : Rule Binary64)
    (cap : Option (Cap Binary64)) : (o.flat r rate cap).Nonneg := by
  unfold flat
  split
  next => exact nonneg_ofLine (zero_le_of_sound hrate)
  next cap =>
    split
    next => exact nonneg_rewardCapped hamount (zero_le_of_sound hrate) r cap
    next => exact nonneg_spendingCapped hamount hrate r cap

/-! ## Tiered rules -/

/-- A row of the tier program does no harm: its rate is not below zero, or nothing is left of its
limit. -/
def Harmless (o : Occasion Binary64) (program : TierProgram Binary64) (row : TierLevel Binary64) :
    Prop :=
  0 ≤ row.rate ∨ ¬ 0 < Amount.headroom row.cap (o.ledger.get (.tierReward program.id))

theorem harmless_of_rate (hamount : o.amount.IsPositive)
    (h : ∀ line ∈ (o.tierRow r program row).line, 0 ≤ line.rate) : o.Harmless program row := by
  by_contra hharm
  obtain ⟨hrate, hleft⟩ := not_or.mp hharm
  have hleft := not_not.mp hleft
  unfold tierRow at h
  dsimp only at h
  -- the limit does not cut off what is not above zero, so the line has the rate of the row
  rw [if_neg (not_le_zero_of_pos hleft),
    if_neg (not_lt_of_not_pos (zero_le_of_lt hleft) (hamount.not_zero_lt_mul hrate))] at h
  exact hrate (h (r.line .active row.rate) rfl)

theorem nonneg_tierRow (hamount : o.amount.IsPositive) (r : Rule Binary64)
    (h : o.Harmless program row) : (o.tierRow r program row).Nonneg := by
  have hrest := zero_le_headroom row.cap (o.ledger.get (.tierReward program.id))
  unfold tierRow
  dsimp only
  split
  next => exact nonneg_tierCharge zero_le_zero zero_le_zero
  next hleft =>
    have hrate : 0 ≤ row.rate := h.resolve_right fun hnot => hleft (headroom_of_not_pos hnot)
    split
    next => exact nonneg_tierCharge (hamount.zero_le_div hrest) hrest
    next => exact nonneg_tierCharge hrate (hamount.zero_le_mul hrate)

/-- A row whose limit is not above zero grants nothing. -/
theorem grantsNothing_tierRow (hcap : ¬ 0 < row.cap)
    (hused : 0 ≤ o.ledger.get (.tierReward program.id)) :
    (o.tierRow r program row).GrantsNothing := by
  unfold tierRow
  simp only [headroom_eq_zero hcap hused, if_pos zero_le_zero]
  refine ⟨(grantsNothing_ofLine rfl).rate, rfl, ?_⟩
  rintro _ ⟨⟩
  rfl

theorem nonneg_tiered (hamount : o.amount.IsPositive) (effect : r.effect = .tiered)
    (passed : o.gateState r = .passed)
    (hrows : ∀ program row, o.Tiers r program row → o.Harmless program row) :
    (o.tiered r).Nonneg := by
  have htiering := o.tiering r
  generalize o.tiered r = c at htiering ⊢
  cases htiering with
  | nothing => exact nonneg_nothing
  | lacking => exact nonneg_ofLine zero_le_zero
  | granting program row level hits offered found =>
    refine nonneg_tierRow hamount r (hrows program row ?_)
    exact ⟨effect, passed, level, hits, offered, found⟩

/-! ## Rules with weights and units -/

theorem nonneg_flexible (o : Occasion Binary64) (r : Rule Binary64)
    (hrate : Amount.isFinite rate = true ∧ ¬ rate < 0) : (o.flexible r rate).Nonneg := by
  rcases o.flexible_cases r rate with heq | ⟨weight, note, heq⟩
  · rw [heq]
    exact nonneg_nothing
  · rw [heq]
    exact nonneg_ofLine (zero_le_mul_of_isFinite (zero_le_ofWeight weight)
      (zero_le_of_sound hrate) (isFinite_unpacked_ofWeight weight) (isFinite_unpacked hrate.1))

theorem nonneg_fixedBonus (o : Occasion Binary64) (r : Rule Binary64) {units : Binary64}
    (hrate : Amount.isFinite rate = true ∧ ¬ rate < 0)
    (hunits : units = 1 ∨ Amount.isFinite units = true ∧ ¬ units < 0) :
    (o.fixedBonus r rate units).Nonneg := by
  have hsound : Amount.isFinite units = true ∧ ¬ units < 0 := by
    rcases hunits with rfl | hsound
    · decide +kernel
    · exact hsound
  unfold fixedBonus
  split
  next =>
    exact nonneg_ofLine (zero_le_mul_of_isFinite (zero_le_of_sound hsound) (zero_le_of_sound hrate)
      (isFinite_unpacked hsound.1) (isFinite_unpacked hrate.1))
  next => exact nonneg_nothing

/-! ## All rules -/

theorem nonneg_applied (hamount : o.amount.IsPositive) (hsound : r.effect.Sound)
    (passed : o.gateState r = .passed)
    (hrows : ∀ program row, o.Tiers r program row → o.Harmless program row) (replaced : Bool) :
    (o.applied replaced r).Nonneg := by
  unfold applied
  cases heffect : r.effect with
  | flat composition rate cap =>
    rw [heffect] at hsound
    dsimp only
    split
    next => exact nonneg_flat hamount hsound.1 r cap
    next => exact nonneg_nothing
  | base rate =>
    rw [heffect] at hsound
    dsimp only
    split
    next => exact nonneg_nothing
    next => exact nonneg_ofLine (zero_le_of_sound hsound)
  | tiered => exact nonneg_tiered hamount heffect passed hrows
  | flexible ratePerUnit =>
    rw [heffect] at hsound
    exact nonneg_flexible o r hsound
  | fixedBonus ratePerUnit units =>
    rw [heffect] at hsound
    exact nonneg_fixedBonus o r hsound.1 hsound.2
  | observer => exact ⟨nofun, nofun, nofun⟩
  | unsupported => exact nonneg_nothing

theorem nonneg_ruleContribution (hamount : o.amount.IsPositive) (hsound : r.effect.Sound)
    (hrows : ∀ program row, o.Tiers r program row → o.Harmless program row) (replaced : Bool) :
    (o.ruleContribution replaced r).Nonneg := by
  unfold ruleContribution
  split
  next => exact nonneg_ofLine zero_le_zero
  next =>
    split
    next => exact nonneg_nothing
    next => exact nonneg_ofLine zero_le_zero
    next passed => exact nonneg_applied hamount hsound passed hrows replaced

theorem nonneg_contribution (hamount : o.amount.IsPositive)
    {position : String × Option (Rule Binary64)}
    (h : ∀ r ∈ position.2, r.effect.Sound ∧
      ∀ program row, o.Tiers r program row → o.Harmless program row) (replaced : Bool) :
    (o.contribution replaced position).Nonneg := by
  unfold contribution
  split
  next r hr => exact nonneg_ruleContribution hamount (h r hr).1 (h r hr).2 replaced
  next => exact nonneg_ofLine zero_le_zero

end Occasion

/-! ## Quotes -/

namespace Quote

/-- The rates of a quote, its sums and the rewards that it charges are zero at least. -/
structure Nonneg (q : Quote Binary64) : Prop where
  rate : ∀ line ∈ q.lines, 0 ≤ line.rate
  totalRate : 0 ≤ q.totalRate
  nativeValue : 0 ≤ q.nativeValue
  capReward : ∀ key second reward, q.capCharge = .reward key second reward → 0 ≤ reward
  tierReward : ∀ charge ∈ q.tierCharge, 0 ≤ charge.reward

theorem zero_le_foldl {lines : List (QuoteLine Binary64)} (h : ∀ line ∈ lines, 0 ≤ line.rate)
    {sum : Binary64} (hsum : 0 ≤ sum) :
    0 ≤ lines.foldl (fun sum line => sum + line.rate) sum := by
  induction lines generalizing sum with
  | nil => exact hsum
  | cons line rest ih =>
    have hline := h line (List.mem_cons_self ..)
    exact ih (fun line' hline' => h line' (List.mem_cons_of_mem _ hline')) (zero_le_add hsum hline)

theorem zero_le_rateOf {lines : List (QuoteLine Binary64)} (h : ∀ line ∈ lines, 0 ≤ line.rate) :
    0 ≤ rateOf lines :=
  zero_le_foldl h zero_le_zero

end Quote

namespace RuleBook

variable {b : RuleBook Binary64} {card : Card} {amount : Binary64} {rawCategory : String}
  {mode : DisplayMode} {ledger : Ledger Binary64} {settings : Settings}

/-- A quote takes what is not negative from its contributions. -/
theorem nonneg_quote (hamount : amount.IsPositive)
    (h : ∀ c ∈ b.contributions (b.occasion card amount rawCategory ledger settings) card,
      c.Nonneg) :
    (b.quote card amount rawCategory mode ledger settings).Nonneg := by
  have hrate : ∀ line ∈ (b.quote card amount rawCategory mode ledger settings).lines,
      0 ≤ line.rate := by
    intro line hline
    obtain ⟨c, hc, hline⟩ := List.mem_filterMap.mp hline
    exact (h c hc).rate line hline
  have htotal := Quote.zero_le_rateOf hrate
  refine ⟨hrate, htotal, hamount.zero_le_mul_left htotal, ?_, ?_⟩
  · intro key second reward hcharge
    obtain ⟨c, hc, hcharge⟩ :=
      List.exists_of_findSome?_eq_some (Quote.capChargeOf_eq_reward_iff.mp hcharge)
    exact (h c hc).capReward (key, second, reward) hcharge
  · intro charge hcharge
    obtain ⟨c, hc, hcharge⟩ := List.exists_of_findSome?_eq_some hcharge
    exact (h c hc).tierReward charge hcharge

/-- **Rewards are not negative, and none is a `NaN`**, unless a row of the tier program says so. The
rates of a quote, their sum, the native value and the rewards charged are at least zero, whatever
the ledger, exactly if no tiered rule of the card applies by a row with a rate that is not, under a
limit that leaves something. Of the numbers of the rules themselves the bad ones do nothing: a rule
that can be evaluated is the same without them, and any other grants nothing. Nor does a row with a
limit that is not above zero. -/
theorem quote_nonneg_iff (scheme : Scheme Binary64) (card : Card) (amount : Binary64)
    (finite : amount.isFinite = true) (positive : 0 < amount) (rawCategory : String)
    (mode : DisplayMode) (ledger : Ledger Binary64) (settings : Settings) :
    let b := ofScheme scheme
    let o := b.occasion card amount rawCategory ledger settings
    ((b.quote card amount rawCategory mode ledger settings).Nonneg ↔
      ∀ r ∈ b.rulesOf card, ∀ program row, o.Tiers r program row → o.Harmless program row) ∧
    (∀ r ∈ b.rulesOf card, r.isSupported = true →
      ∃ s ∈ scheme.rules, r = Rule.ofSpec s.cleared) ∧
    (∀ r replaced, r.isSupported = false → (o.ruleContribution replaced r).GrantsNothing) ∧
    ∀ r program row replaced, o.Tiers r program row → ¬ 0 < row.cap →
      0 ≤ ledger.get (.tierReward program.id) →
      (o.ruleContribution replaced r).GrantsNothing := by
  intro b o
  have hamount : o.amount.IsPositive := isPositive_of_pos finite positive
  refine ⟨⟨fun h r hr program row htiers => ?_, fun h => ?_⟩, ?_, ?_, ?_⟩
  · refine Occasion.harmless_of_rate (r := r) hamount fun line hline => h.rate line ?_
    rw [← htiers.ruleContribution_eq (b.replacer? o card).isSome] at hline
    exact line_mem_quote hr amount rawCategory mode ledger settings line hline
  · refine nonneg_quote hamount fun c hc => ?_
    obtain ⟨position, hposition, rfl⟩ := exists_position_of_mem_contributions hc
    refine Occasion.nonneg_contribution hamount (fun r hr => ?_) _
    have hlisted : r ∈ b.rulesOf card := mem_rulesOf.mpr ⟨position, hposition, hr⟩
    exact ⟨Rule.effect_sound_of_mem_compileAll (mem_values_of_mem_rulesOf hlisted), h r hlisted⟩
  · intro r hr supported
    obtain ⟨id, -, hrule⟩ := mem_rulesOf_iff_rule?.mp hr
    obtain ⟨s, hs, -, heq⟩ := Rule.exists_ofSpec_cleared hrule supported
    exact ⟨s, hs, heq⟩
  · intro r replaced unsupported
    have hunevaluable : o.Unevaluable r := .inl unsupported
    obtain ⟨note, heq⟩ := hunevaluable.exists_ruleContribution_eq replaced
    rw [heq]
    exact grantsNothing_ofLine rfl
  · intro r program row replaced htiers hcap hused
    rw [htiers.ruleContribution_eq replaced]
    exact Occasion.grantsNothing_tierRow hcap hused

/-- The smallest scheme for some rules and a tiered one, with a tier program of one level. -/
def tieredBy (rules : List (RuleSpec Binary64)) (rate cap : Binary64) : Scheme Binary64 :=
  { Sample.single (rules ++ [.ofKind "tier" .tieredCapped]) with
    tierProgram := some ⟨"program", 1, [⟨1, rate, cap⟩], "travel", none, none⟩ }

/-- A base rate below zero keeps its rule from being evaluated, and no rate is negative. -/
theorem quote_nonneg_iff_badBase :
    let scheme := tieredBy
      [.base "base" (-Sample.thousandths 50),
        (RuleSpec.flat "dining" (Sample.thousandths 100) ["dining"]).capped .reward "k"
          (Sample.whole 300)]
      (Sample.thousandths 20) (Sample.whole 500)
    let ledger : Ledger Binary64 := Ledger.empty.add (.configured "k") (Sample.whole 250)
    let q := (ofScheme scheme).quote (.held "card" "cash" ["base", "dining", "tier"])
      (Sample.whole 1000) "dining" .cash ledger Sample.settings
    q.Nonneg ∧
      q.lines.map (·.status) = [.unsupported, .partly, .active] ∧
      q.lines.map (·.rate) = [0, Sample.thousandths 50, Sample.thousandths 20] := by
  intro scheme ledger q
  have hrows := (quote_nonneg_iff scheme (.held "card" "cash" ["base", "dining", "tier"])
    (Sample.whole 1000) (by decide +kernel) (by decide +kernel) "dining" .cash ledger
    Sample.settings).1
  refine ⟨hrows.mpr fun r _ program row htiers => .inl ?_, by decide +kernel, by decide +kernel⟩
  obtain rfl := Option.some.inj htiers.offered
  obtain rfl := Option.some.inj htiers.row
  decide +kernel

/-- A rate below zero in a row of the tier program is granted as it is, and there is no finding. -/
theorem quote_negative_of_tierRow :
    let b := ofScheme (tieredBy [] (-Sample.thousandths 10) (Sample.whole 500))
    let q := b.quote (.held "card" "cash" ["tier"]) (Sample.whole 1000) "dining" .cash .empty
      Sample.settings
    ¬ q.Nonneg ∧ q.totalRate < 0 ∧ q.nativeValue = -Sample.whole 10 ∧
      q.lines.map (fun line => (line.status, line.rate)) = [(.active, -Sample.thousandths 10)] ∧
      q.tierCharge.map (·.reward) = some (-Sample.whole 10) ∧ b.findings = [] := by
  intro b q
  have hnegative : ¬ 0 ≤ q.totalRate := by decide +kernel
  exact ⟨fun h => hnegative h.totalRate, by decide +kernel, by decide +kernel, by decide +kernel,
    by decide +kernel, by decide +kernel⟩

end RuleBook

end CardRewards
