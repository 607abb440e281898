import CardRewards.Proofs.Exact
import CardRewards.Proofs.Quote.Charges
import CardRewards.Proofs.Rule.Conflict

/-!
# The rules behind lines

A line names the rule at the position that contributed it (`ruleId_of_line`), so a line leads back
to its rule by the rule book, and the lines of a quote stand in the order of the rules of the card,
at most one for each position (`ruleIds_sublist`). A line says that its rule cannot be evaluated
only where evaluation has nothing to go by (`Unevaluable`): there is no rule under the id, or it has
a defect, or it is for a tier that no program has (`exists_unsupported_line_iff`).

With exact amounts a line of a rule under a cap on rewards also tells what is charged to the cap:
its rate on the amount, if that is anything (`rewardCharge_of_line`).
-/

namespace CardRewards

/-- The line of a contribution, if it has one, is of a rule that could be evaluated. -/
def Contribution.Evaluates {α : Type} (c : Contribution α) (r : Rule α) : Prop :=
  ∀ line, c.line = some line → line.ruleId = r.id ∧ line.status ≠ .unsupported

namespace Contribution

variable {α : Type} {r : Rule α}

theorem evaluates_nothing : (nothing : Contribution α).Evaluates r := fun _ h => nomatch h

theorem evaluates_of_line {c : Contribution α} {line : QuoteLine α} (h : c.line = some line)
    (hid : line.ruleId = r.id) (hstatus : line.status ≠ .unsupported) : c.Evaluates r := by
  intro line' h'
  obtain rfl := Option.some.inj (h.symm.trans h')
  exact ⟨hid, hstatus⟩

end Contribution

namespace Occasion

open Contribution (evaluates_nothing evaluates_of_line)

variable {α : Type} [Amount α] {o : Occasion α} {replaced : Bool} {r : Rule α}
  {position : String × Option (Rule α)}

/-! ## Rules that can be evaluated -/

theorem evaluates_flat (o : Occasion α) (r : Rule α) (rate : α) (cap : Option (Cap α)) :
    (o.flat r rate cap).Evaluates r := by
  unfold flat
  split
  next => exact evaluates_of_line rfl rfl LineStatus.noConfusion
  next =>
    split
    next =>
      simp only [rewardCapped]
      split
      next => exact evaluates_of_line rfl rfl LineStatus.noConfusion
      next => split <;> exact evaluates_of_line rfl rfl LineStatus.noConfusion
    next =>
      simp only [spendingCapped]
      split
      next => exact evaluates_of_line rfl rfl LineStatus.noConfusion
      next => split <;> exact evaluates_of_line rfl rfl LineStatus.noConfusion

theorem evaluates_tierRow (o : Occasion α) (r : Rule α) (program : TierProgram α)
    (row : TierLevel α) : (o.tierRow r program row).Evaluates r := by
  simp only [tierRow]
  split
  next => exact evaluates_of_line rfl rfl LineStatus.noConfusion
  next => split <;> exact evaluates_of_line rfl rfl LineStatus.noConfusion

theorem evaluates_flexible (o : Occasion α) (r : Rule α) (rate : α) :
    (o.flexible r rate).Evaluates r := by
  rcases o.flexible_cases r rate with heq | ⟨weight, note, heq⟩
  · rw [heq]
    exact evaluates_nothing
  · rw [heq]
    exact evaluates_of_line rfl rfl LineStatus.noConfusion

theorem evaluates_fixedBonus (o : Occasion α) (r : Rule α) (rate units : α) :
    (o.fixedBonus r rate units).Evaluates r := by
  unfold fixedBonus
  split
  next => exact evaluates_of_line rfl rfl LineStatus.noConfusion
  next => exact evaluates_nothing

/-! ## Rules that cannot be evaluated -/

/-- A tiered rule applies at a level for which there is no row, or no program at all. -/
structure LacksRow (o : Occasion α) (r : Rule α) : Prop where
  effect : r.effect = .tiered
  passed : o.gateState r = .passed
  level : o.settings.tierLevel ≠ 0
  hits : o.hitsOrOpen r = true
  row : ∀ program ∈ o.book.scheme.tierProgram, program.row? o.settings.tierLevel = none

/-- Evaluation has nothing to go by: the rule has a defect, or it lacks a row of a tier program. -/
def Unevaluable (o : Occasion α) (r : Rule α) : Prop := r.isSupported = false ∨ o.LacksRow r

theorem LacksRow.exists_tiered_eq (h : o.LacksRow r) :
    ∃ note, o.tiered r = .ofLine (r.noted .unsupported 0 note) := by
  unfold tiered
  rw [if_neg h.level, if_neg (by simp [h.hits])]
  cases hprogram : o.book.scheme.tierProgram with
  | none => exact ⟨_, rfl⟩
  | some program =>
    simp only [h.row program hprogram]
    exact ⟨_, rfl⟩

/-- A rule that cannot be evaluated contributes the line that says so. -/
theorem Unevaluable.exists_ruleContribution_eq (h : o.Unevaluable r) (replaced : Bool) :
    ∃ note, o.ruleContribution replaced r = .ofLine (r.noted .unsupported 0 note) := by
  rcases h with hdefect | hrow
  · obtain ⟨defect, hsome⟩ : ∃ defect, r.defect? = some defect :=
      Option.isSome_iff_exists.mp (by simpa [Rule.isSupported] using hdefect)
    exact ⟨defect.message, by simp [ruleContribution, hsome]⟩
  · obtain ⟨note, hnote⟩ := hrow.exists_tiered_eq
    have hnone : r.defect? = none := by simp [Rule.defect?, hrow.effect]
    refine ⟨note, ?_⟩
    simp only [ruleContribution, hnone, hrow.passed, applied, hrow.effect, hnote]

/-- Of the ways in which a tiered rule ends, two lack a row. The others show it evaluated. -/
theorem evaluates_tiered (effect : r.effect = .tiered) (passed : o.gateState r = .passed)
    (h : ¬ o.LacksRow r) : (o.tiered r).Evaluates r := by
  have htiering := o.tiering r
  generalize o.tiered r = c at htiering ⊢
  cases htiering with
  | nothing => exact evaluates_nothing
  | lacking note level hits row => exact absurd ⟨effect, passed, level, hits, row⟩ h
  | granting program row => exact evaluates_tierRow o r program row

theorem evaluates_applied (passed : o.gateState r = .passed) (h : ¬ o.Unevaluable r)
    (replaced : Bool) : (o.applied replaced r).Evaluates r := by
  unfold applied
  split
  next =>
    split
    next => exact evaluates_flat o r _ _
    next => exact evaluates_nothing
  next =>
    split
    next => exact evaluates_nothing
    next => exact evaluates_of_line rfl rfl LineStatus.noConfusion
  next effect => exact evaluates_tiered effect passed fun hrow => h (.inr hrow)
  next => exact evaluates_flexible o r _
  next => exact evaluates_fixedBonus o r _ _
  next => exact evaluates_nothing
  next => exact evaluates_nothing

/-- Every other rule contributes nothing, or a line that shows it evaluated. -/
theorem evaluates_ruleContribution (h : ¬ o.Unevaluable r) (replaced : Bool) :
    (o.ruleContribution replaced r).Evaluates r := by
  unfold ruleContribution
  split
  next defect hdefect => exact absurd (.inl (by simp [Rule.isSupported, hdefect])) h
  next =>
    split
    next => exact evaluates_nothing
    next => exact evaluates_of_line rfl rfl LineStatus.noConfusion
    next passed => exact evaluates_applied passed h replaced

/-- The line of a rule names the rule. -/
theorem ruleId_of_line_ruleContribution {line : QuoteLine α}
    (h : (o.ruleContribution replaced r).line = some line) : line.ruleId = r.id := by
  by_cases hrule : o.Unevaluable r
  · obtain ⟨note, hnote⟩ := hrule.exists_ruleContribution_eq replaced
    rw [hnote] at h
    obtain rfl := Option.some.inj h
    rfl
  · exact (evaluates_ruleContribution hrule replaced line h).1

/-- A position says that it cannot be evaluated exactly if it has no rule, or one that cannot be
evaluated. -/
theorem exists_unsupported_line_iff :
    (∃ line, (o.contribution replaced position).line = some line ∧ line.status = .unsupported) ↔
      ∀ r ∈ position.2, o.Unevaluable r := by
  unfold contribution
  cases hposition : position.2 with
  | none => exact ⟨fun _ r hr => absurd hr (Option.not_mem_none r), fun _ => ⟨_, rfl, rfl⟩⟩
  | some r =>
    simp only [Option.mem_def, Option.some.injEq, forall_eq']
    constructor
    · rintro ⟨line, hline, hstatus⟩
      by_contra hrule
      exact (evaluates_ruleContribution hrule replaced line hline).2 hstatus
    · intro hrule
      obtain ⟨note, hnote⟩ := hrule.exists_ruleContribution_eq replaced
      exact ⟨_, by rw [hnote]; rfl, rfl⟩

end Occasion

namespace RuleBook

variable {α : Type} [Amount α] {scheme : Scheme α}

/-- A line names the id listed at the position that contributed it. -/
theorem ruleId_of_line {o : Occasion α} {replaced : Bool} {position : String × Option (Rule α)}
    {line : QuoteLine α} (hrule : (ofScheme scheme).rule? position.1 = position.2)
    (hline : (o.contribution replaced position).line = some line) :
    line.ruleId = position.1 := by
  unfold Occasion.contribution at hline
  split at hline
  next r hr =>
    rw [Occasion.ruleId_of_line_ruleContribution hline]
    exact Rule.id_of_get?_compileAll (hrule.trans hr)
  next =>
    obtain rfl := Option.some.inj hline
    rfl

theorem ruleIds_linesOf_sublist (o : Occasion α) (replaced : Bool) :
    ∀ ids : List String,
      ((Quote.linesOf ((ids.map fun id => (id, (ofScheme scheme).rule? id)).map
        (o.contribution replaced))).map (·.ruleId)).Sublist ids
  | [] => .slnil
  | id :: rest => by
    have ih := ruleIds_linesOf_sublist o replaced rest
    unfold Quote.linesOf at ih ⊢
    rw [List.map_cons, List.map_cons]
    cases hline : (o.contribution replaced (id, (ofScheme scheme).rule? id)).line with
    | none =>
      rw [List.filterMap_cons_none hline]
      exact ih.cons id
    | some line =>
      rw [List.filterMap_cons_some hline, List.map_cons, ruleId_of_line rfl hline]
      exact ih.cons_cons id

/-- The lines of a quote name rules of the card in the order in which the card lists them. -/
theorem ruleIds_sublist (scheme : Scheme α) (card : Card) (amount : α) (rawCategory : String)
    (mode : DisplayMode) (ledger : Ledger α) (settings : Settings) :
    (((ofScheme scheme).quote card amount rawCategory mode ledger settings).lines.map
      (·.ruleId)).Sublist card.rules :=
  ruleIds_linesOf_sublist _ _ card.rules

/-- A quote says that a rule cannot be evaluated exactly if the card lists such a one, or an id
without a rule. -/
theorem exists_unsupported_mem_lines_iff (b : RuleBook α) (card : Card) (amount : α)
    (rawCategory : String) (mode : DisplayMode) (ledger : Ledger α) (settings : Settings) :
    (∃ line ∈ (b.quote card amount rawCategory mode ledger settings).lines,
        line.status = .unsupported) ↔
      ∃ id ∈ card.rules, ∀ r ∈ b.rule? id,
        (b.occasion card amount rawCategory ledger settings).Unevaluable r := by
  constructor
  · rintro ⟨line, hline, hstatus⟩
    obtain ⟨c, hc, hshown⟩ := List.mem_filterMap.mp hline
    obtain ⟨position, hposition, rfl⟩ := exists_position_of_mem_contributions hc
    obtain ⟨hid, hrule⟩ := rule?_of_mem_cardRules hposition
    have hall := Occasion.exists_unsupported_line_iff.mp ⟨line, hshown, hstatus⟩
    exact ⟨position.1, hid, hrule ▸ hall⟩
  · rintro ⟨id, hid, hall⟩
    let o := b.occasion card amount rawCategory ledger settings
    have hposition : (id, b.rule? id) ∈ b.cardRules card := List.mem_map.mpr ⟨id, hid, rfl⟩
    have hpart : ∃ line,
        (o.contribution (b.replacer? o card).isSome (id, b.rule? id)).line = some line ∧
          line.status = .unsupported :=
      Occasion.exists_unsupported_line_iff.mpr hall
    obtain ⟨line, hshown, hstatus⟩ := hpart
    exact ⟨line, List.mem_filterMap.mpr ⟨_, List.mem_map.mpr ⟨_, hposition, rfl⟩, hshown⟩, hstatus⟩

end RuleBook

/-! ## Exact rewards -/

namespace Occasion

variable {o : Occasion ℚ} {replaced : Bool} {r : Rule ℚ} {position : String × Option (Rule ℚ)}

/-- A rule under a cap on rewards charges to the cap what its line comes to on the amount, if that
is more than nothing. -/
theorem line_rewardCapped (hamount : 0 < o.amount) (r : Rule ℚ) (rate : ℚ) (cap : Cap ℚ) :
    ∃ line, (o.rewardCapped r rate cap).line = some line ∧
      (0 < line.rate → (o.rewardCapped r rate cap).rewardCharge =
        some (cap.key, cap.secondary.map (·.key), line.rate * o.amount)) ∧
      (line.rate ≤ 0 → (o.rewardCapped r rate cap).rewardCharge = none) := by
  simp only [rewardCapped]
  split
  next => exact ⟨_, rfl, fun hrate => absurd hrate (lt_irrefl 0), fun _ => rfl⟩
  next hrest =>
    have hpos : 0 < o.rewardHeadroom cap := not_le.mp hrest
    split
    next =>
      have hrate : 0 < o.rewardHeadroom cap / o.amount := div_pos hpos hamount
      refine ⟨_, rfl, fun _ => ?_, fun hnone => absurd hrate (not_lt.mpr hnone)⟩
      simp only [Rule.noted, div_mul_cancel₀ _ hamount.ne']
    next =>
      refine ⟨_, rfl, fun hrate => ?_, fun hrate => ?_⟩
      · simp only [Rule.line] at hrate ⊢
        rw [if_pos (mul_pos hamount hrate), mul_comm]
      · exact if_neg (not_lt.mpr (mul_nonpos_of_nonneg_of_nonpos hamount.le hrate))

/-- A line with a rate, of a rule under a cap on rewards, goes with a charge to the cap. -/
theorem rewardCharge_of_line {cap : Cap ℚ} {line : QuoteLine ℚ} (hamount : 0 < o.amount)
    (hr : position.2 = some r) (hcap : r.cap? = some cap) (hmode : cap.mode = .reward)
    (hline : (o.contribution replaced position).line = some line) (hrate : 0 < line.rate) :
    (o.contribution replaced position).rewardCharge =
      some (cap.key, cap.secondary.map (·.key), line.rate * o.amount) := by
  obtain ⟨composition, rate, heffect⟩ := Rule.effect_of_cap? hcap
  have hdefect : r.defect? = none := by simp [Rule.defect?, heffect]
  cases hgate : o.gateState r with
  | failed =>
    simp [contribution, hr, ruleContribution, hdefect, hgate, Contribution.nothing] at hline
  | locked progress required =>
    -- a locked rule shows a line, but one without a rate
    have hlocked : (o.contribution replaced position).line = some (r.noted .locked 0
        ("任务进度 " ++ Amount.rounded progress ++ "/" ++ Amount.rounded required)) := by
      simp [contribution, hr, ruleContribution, hdefect, hgate, Contribution.ofLine]
    obtain rfl := Option.some.inj (hlocked.symm.trans hline)
    exact absurd hrate (lt_irrefl 0)
  | passed =>
    by_cases hits : o.hits r = true
    · have hflat : o.contribution replaced position = o.rewardCapped r rate cap := by
        rw [contribution_of_flat hr heffect hgate hits, hmode]
      obtain ⟨line', hline', hcharge, -⟩ := line_rewardCapped hamount r rate cap
      rw [hflat] at hline ⊢
      obtain rfl := Option.some.inj (hline'.symm.trans hline)
      exact hcharge hrate
    · rw [contribution_of_passed hr hdefect hgate] at hline
      simp [applied, heffect, hits, Contribution.nothing] at hline

/-- A charge to a cap on rewards goes with a line that has a rate. -/
theorem line_of_rewardCharge {charge : CounterKey × Option CounterKey × ℚ} (hamount : 0 < o.amount)
    (h : (o.contribution replaced position).rewardCharge = some charge) :
    ∃ r cap line, position.2 = some r ∧ r.cap? = some cap ∧ cap.mode = .reward ∧
      (o.contribution replaced position).line = some line ∧ 0 < line.rate := by
  obtain ⟨r, rate, cap, reward, hr, hgrants, -⟩ := rewardCharge_eq_some_iff.mp h
  obtain ⟨composition, heffect⟩ := hgrants.effect
  have hcap : r.cap? = some cap := by simp [Rule.cap?, heffect]
  have hflat : o.contribution replaced position = o.rewardCapped r rate cap :=
    hgrants.contribution_eq hr
  obtain ⟨line, hline, -, hnone⟩ := line_rewardCapped hamount r rate cap
  rw [hflat] at h ⊢
  refine ⟨r, cap, line, hr, hcap, hgrants.mode, hline, not_le.mp fun hrate => ?_⟩
  rw [hnone hrate] at h
  simp at h

end Occasion

end CardRewards
