import CardRewards.Proofs.Quote.ClosedForm
import CardRewards.Proofs.Quote.Position
import Mathlib.Algebra.Order.BigOperators.Group.List

/-!
# More usage

The ledger says how much of a limit has been used, and the more has been used the less is left
(`Amount.headroom_anti`). A rule under a limit grants its rate on no more than what is left, so its
rate falls from all of it over a part of it to nothing, and never rises (`Amount.rateLeft_mono`).

Mission gates go the other way: a mission that comes further opens them. Between two ledgers that
stand alike in the counters of the mission gates, and the second no lower in any other, the quotes
of a card therefore differ in their rates alone, and the second has none that is higher:
`RuleBook.quote_antitone`.
-/

namespace CardRewards

namespace Amount

/-! ## What is left -/

theorem headroom_anti {limit used used' : ℚ} (h : used ≤ used') :
    headroom limit used' ≤ headroom limit used := by
  rw [headroom_eq_max, headroom_eq_max]
  exact max_le_max (by linarith) le_rfl

/-- Nothing is left of a limit that has been reached. -/
theorem headroom_nonpos {limit used : ℚ} (h : limit ≤ used) : headroom limit used ≤ 0 := by
  rw [headroom_eq_max]
  exact max_le (sub_nonpos.mpr h) le_rfl

/-- The rate that a limit leaves of a full one: nothing, the rest of the limit turned into a rate if
it is less than what is wanted, or all of it. -/
def rateLeft (full perUnit wanted rest : ℚ) : ℚ :=
  if rest ≤ 0 then 0 else if rest < wanted then rest * perUnit else full

/-- The rate falls with what is left, if a rest that is as much as is wanted turns into the full
rate. -/
theorem rateLeft_mono {full perUnit wanted rest rest' : ℚ} (hfull : 0 ≤ full)
    (hwanted : 0 < wanted → 0 ≤ perUnit ∧ wanted * perUnit = full) (h : rest' ≤ rest) :
    rateLeft full perUnit wanted rest' ≤ rateLeft full perUnit wanted rest := by
  unfold rateLeft
  by_cases hnone : rest' ≤ 0
  · rw [if_pos hnone]
    split
    next => exact le_rfl
    next hrest =>
      split
      next hpart =>
        have hpos : 0 < rest := not_le.mp hrest
        exact mul_nonneg hpos.le (hwanted (hpos.trans hpart)).1
      next => exact hfull
  · have hpos : 0 < rest' := not_le.mp hnone
    rw [if_neg hnone, if_neg (not_le.mpr (hpos.trans_le h))]
    by_cases hpart : rest < wanted
    · rw [if_pos hpart, if_pos (h.trans_lt hpart)]
      exact mul_le_mul_of_nonneg_right h (hwanted (hpos.trans (h.trans_lt hpart))).1
    · rw [if_neg hpart]
      split
      next hpart' =>
        obtain ⟨hunit, heq⟩ := hwanted (hpos.trans hpart')
        exact heq ▸ mul_le_mul_of_nonneg_right hpart'.le hunit
      next => exact le_rfl

end Amount

/-- A counter does not fall when something that is not negative is added to one. -/
theorem Ledger.get_le_get_add (ledger : Ledger ℚ) (other : CounterKey) {delta : ℚ}
    (h : 0 ≤ delta) {key : CounterKey} : ledger.get key ≤ (ledger.add other delta).get key := by
  rw [get_add]
  split
  next heq =>
    rw [heq]
    exact le_add_of_nonneg_right h
  next => exact le_rfl

/-! ## Lines with no higher rate -/

/-- A line shows the rule that another one shows, with a rate that is no higher. -/
structure QuoteLine.NoHigher (line' line : QuoteLine ℚ) : Prop where
  ruleId : line'.ruleId = line.ruleId
  rate : line'.rate ≤ line.rate

/-- A contribution grants no more than another: it shows a line if the other one does, with a rate
that is no higher, and counts for the same mission. -/
structure Contribution.GrantsNoMore (c' c : Contribution ℚ) : Prop where
  line : Option.Rel QuoteLine.NoHigher c'.line c.line
  missionTag : c'.missionTag = c.missionTag

/-- A contribution shows a rate of a rule. -/
def Contribution.ShowsRate (c : Contribution ℚ) (r : Rule ℚ) (rate : ℚ) : Prop :=
  ∃ line, c.line = some line ∧ line.ruleId = r.id ∧ line.rate = rate

namespace Contribution

variable {c c' : Contribution ℚ} {r : Rule ℚ} {rate rate' : ℚ}

theorem grantsNoMore_refl (c : Contribution ℚ) : c.GrantsNoMore c where
  line := by
    cases c.line with
    | none => exact .none
    | some line => exact .some ⟨rfl, le_rfl⟩
  missionTag := rfl

theorem ShowsRate.grantsNoMore (h : c.ShowsRate r rate) (h' : c'.ShowsRate r rate')
    (hrate : rate' ≤ rate) (htag : c'.missionTag = c.missionTag) : c'.GrantsNoMore c := by
  obtain ⟨line, hline, hid, rfl⟩ := h
  obtain ⟨line', hline', hid', rfl⟩ := h'
  refine ⟨?_, htag⟩
  rw [hline, hline']
  exact .some ⟨hid'.trans hid.symm, hrate⟩

/-- Of three contributions, for nothing left, less than wanted and as much as wanted, the one in
place shows the rate that is left. -/
theorem showsRate_limited {exhausted partly full : Contribution ℚ} {perUnit wanted rest : ℚ}
    (hexhausted : exhausted.ShowsRate r 0) (hpartly : partly.ShowsRate r (rest * perUnit))
    (hfull : full.ShowsRate r rate) :
    (if rest ≤ 0 then exhausted else if rest < wanted then partly else full).ShowsRate r
      (Amount.rateLeft rate perUnit wanted rest) := by
  unfold Amount.rateLeft
  split
  next => exact hexhausted
  next =>
    split
    next => exact hpartly
    next => exact hfull

end Contribution

/-- The limits that hold a rule back. -/
def Restraint.limits {α : Type} : Restraint α → List (Limit α)
  | .free => []
  | .rewards limits => limits
  | .spending limit => [limit]

namespace Occasion

open Amount (headroom headroom_anti headroom_nonpos rateLeft rateLeft_mono)
open Contribution (grantsNoMore_refl showsRate_limited)

/-! ## Caps that leave nothing -/

theorem flat_of_exhausted {α : Type} [Amount α] {o : Occasion α} {cap : Cap α}
    (h : o.capHeadroom cap ≤ 0) (r : Rule α) (rate : α) :
    o.flat r rate (some cap) = exhausted r cap := by
  unfold capHeadroom at h
  cases hmode : cap.mode with
  | reward =>
    simp only [hmode] at h
    simp only [flat, hmode, rewardCapped, if_pos h]
  | spending =>
    simp only [hmode] at h
    simp only [flat, hmode, spendingCapped, if_pos h]

variable {o : Occasion ℚ} {r : Rule ℚ} {rate : ℚ} {ledger : Ledger ℚ}

/-- A cap leaves nothing as soon as one of its limits in force has been reached. -/
theorem capHeadroom_nonpos {cap : Cap ℚ} {limit : Limit ℚ} (h : limit ∈ cap.restraint.limits)
    (reached : limit.limit ≤ o.ledger.get limit.key) : o.capHeadroom cap ≤ 0 := by
  unfold Cap.restraint at h
  unfold capHeadroom
  cases hmode : cap.mode with
  | reward =>
    simp only [hmode, Restraint.limits] at h
    exact (rewardHeadroom_le h).trans (headroom_nonpos reached)
  | spending =>
    simp only [hmode, Restraint.limits, List.mem_singleton] at h
    subst h
    exact headroom_nonpos reached

/-- A rule whose limit has been reached shows that it is capped, with no rate. -/
theorem Earns.exists_capped_line {restraint : Restraint ℚ} (h : o.Earns r rate restraint)
    (reached : ∃ limit ∈ restraint.limits, limit.limit ≤ o.ledger.get limit.key)
    (replaced : Bool) :
    ∃ line, (o.ruleContribution replaced r).line = some line ∧ line.status = .capped ∧
      line.rate = 0 := by
  obtain ⟨limit, hlimit, hreached⟩ := reached
  have hr : (r.id, some r).2 = some r := rfl
  show ∃ line, (o.contribution replaced (r.id, some r)).line = some line ∧ _
  cases h with
  | @flat _ _ cap effect passed hits =>
    cases cap with
    | none => exact absurd hlimit List.not_mem_nil
    | some cap =>
      have heq : o.contribution replaced (r.id, some r) = exhausted r cap := by
        rw [contribution_of_passed hr (by simp [Rule.defect?, effect]) passed]
        simp only [applied, effect, hits, if_true]
        exact flat_of_exhausted (capHeadroom_nonpos hlimit hreached) r rate
      rw [heq]
      exact ⟨_, rfl, rfl, rfl⟩
  | tiered tiers =>
    obtain rfl := List.mem_singleton.mp hlimit
    rw [tiers.contribution_eq hr]
    simp only [tierRow, if_pos (headroom_nonpos hreached)]
    exact ⟨_, rfl, rfl, rfl⟩

/-! ## Rules under limits -/

/-- A cap leaves no more when the counters have grown. -/
theorem capHeadroom_anti (more : ∀ key, o.ledger.get key ≤ ledger.get key) (cap : Cap ℚ) :
    { o with ledger }.capHeadroom cap ≤ o.capHeadroom cap := by
  have hprimary : headroom cap.limit (ledger.get cap.key) ≤
      headroom cap.limit (o.ledger.get cap.key) := headroom_anti (more cap.key)
  unfold capHeadroom
  cases cap.mode with
  | spending => exact hprimary
  | reward =>
    simp only [rewardHeadroom]
    cases cap.secondary with
    | none => exact hprimary
    | some second =>
      simp only [Amount.smaller_eq_min]
      exact min_le_min hprimary (headroom_anti (more second.key))

theorem showsRate_rewardCapped (o : Occasion ℚ) (r : Rule ℚ) (rate : ℚ) (cap : Cap ℚ) :
    (o.rewardCapped r rate cap).ShowsRate r
      (rateLeft rate o.amount⁻¹ (o.amount * rate) (o.rewardHeadroom cap)) :=
  showsRate_limited ⟨_, rfl, rfl, rfl⟩ ⟨_, rfl, rfl, div_eq_mul_inv ..⟩ ⟨_, rfl, rfl, rfl⟩

theorem showsRate_spendingCapped (o : Occasion ℚ) (r : Rule ℚ) (rate : ℚ) (cap : Cap ℚ) :
    (o.spendingCapped r rate cap).ShowsRate r
      (rateLeft rate (rate / o.amount) o.amount (headroom cap.limit (o.ledger.get cap.key))) :=
  showsRate_limited ⟨_, rfl, rfl, rfl⟩ ⟨_, rfl, rfl, mul_div_assoc ..⟩ ⟨_, rfl, rfl, rfl⟩

theorem showsRate_tierRow (o : Occasion ℚ) (r : Rule ℚ) (program : TierProgram ℚ)
    (row : TierLevel ℚ) :
    (o.tierRow r program row).ShowsRate r
      (rateLeft row.rate o.amount⁻¹ (o.amount * row.rate)
        (headroom row.cap (o.ledger.get (.tierReward program.id)))) :=
  showsRate_limited ⟨_, rfl, rfl, rfl⟩ ⟨_, rfl, rfl, div_eq_mul_inv ..⟩ ⟨_, rfl, rfl, rfl⟩

/-- A reward is wanted only on an amount above zero, and all of it comes to the full rate. -/
theorem inv_of_reward_pos {amount : ℚ} (hrate : 0 ≤ rate) (h : 0 < amount * rate) :
    0 ≤ amount⁻¹ ∧ amount * rate * amount⁻¹ = rate := by
  have hamount : 0 < amount := pos_of_mul_pos_left h hrate
  refine ⟨inv_nonneg.mpr hamount.le, ?_⟩
  rw [mul_comm amount, mul_inv_cancel_right₀ hamount.ne']

/-- The same of spending. -/
theorem div_of_spending_pos {amount : ℚ} (hrate : 0 ≤ rate) (h : 0 < amount) :
    0 ≤ rate / amount ∧ amount * (rate / amount) = rate :=
  ⟨div_nonneg hrate h.le, mul_div_cancel₀ rate h.ne'⟩

theorem grantsNoMore_flat (hrate : 0 ≤ rate) (more : ∀ key, o.ledger.get key ≤ ledger.get key)
    (cap : Option (Cap ℚ)) :
    ({ o with ledger }.flat r rate cap).GrantsNoMore (o.flat r rate cap) := by
  cases cap with
  | none => exact grantsNoMore_refl _
  | some cap =>
    have hrest := capHeadroom_anti more cap
    unfold flat
    unfold capHeadroom at hrest
    cases hmode : cap.mode with
    | reward =>
      simp only [hmode] at hrest ⊢
      refine (showsRate_rewardCapped o r rate cap).grantsNoMore
        (showsRate_rewardCapped _ r rate cap)
        (rateLeft_mono hrate (inv_of_reward_pos hrate) hrest) ?_
      rw [(charges_rewardCapped _ r rate cap).2.2, (charges_rewardCapped _ r rate cap).2.2]
    | spending =>
      simp only [hmode] at hrest ⊢
      refine (showsRate_spendingCapped o r rate cap).grantsNoMore
        (showsRate_spendingCapped _ r rate cap)
        (rateLeft_mono hrate (div_of_spending_pos hrate) hrest) ?_
      rw [(charges_spendingCapped _ r rate cap).2.2, (charges_spendingCapped _ r rate cap).2.2]

/-- A tiered rule contributes what the row of its level comes to, or something that the ledger has
no part in. -/
theorem tiered_cases (o : Occasion ℚ) (r : Rule ℚ) :
    (∃ program ∈ o.book.scheme.tierProgram, ∃ row ∈ program.row? o.settings.tierLevel,
        ∀ ledger, { o with ledger }.tiered r = { o with ledger }.tierRow r program row) ∨
      ∃ c, ∀ ledger, { o with ledger }.tiered r = c := by
  by_cases hlevel : o.settings.tierLevel = 0
  · exact .inr ⟨_, fun _ => if_pos hlevel⟩
  by_cases hhits : (!o.hitsOrOpen r) = true
  · exact .inr ⟨_, fun _ => (if_neg hlevel).trans (if_pos hhits)⟩
  have heq (ledger : Ledger ℚ) : { o with ledger }.tiered r = _ :=
    (if_neg hlevel).trans (if_neg hhits)
  simp only at heq
  cases hprogram : o.book.scheme.tierProgram with
  | none =>
    simp only [hprogram] at heq
    exact .inr ⟨_, heq⟩
  | some program =>
    cases hrow : program.row? o.settings.tierLevel with
    | none =>
      simp only [hprogram, hrow] at heq
      exact .inr ⟨_, heq⟩
    | some row =>
      simp only [hprogram, hrow] at heq
      exact .inl ⟨program, rfl, row, hrow, heq⟩

theorem grantsNoMore_tiered (more : ∀ key, o.ledger.get key ≤ ledger.get key)
    (hrates : ∀ program ∈ o.book.scheme.tierProgram, ∀ row ∈ program.levels, 0 ≤ row.rate) :
    ({ o with ledger }.tiered r).GrantsNoMore (o.tiered r) := by
  rcases o.tiered_cases r with ⟨program, hprogram, row, hrow, heq⟩ | ⟨c, heq⟩
  · have hrate : 0 ≤ row.rate := hrates program hprogram row (List.mem_of_find?_eq_some hrow)
    rw [heq ledger, show o.tiered r = o.tierRow r program row from heq o.ledger]
    refine (showsRate_tierRow o r program row).grantsNoMore
      (showsRate_tierRow _ r program row)
      (rateLeft_mono hrate (inv_of_reward_pos hrate) (headroom_anti (more _))) ?_
    rw [(charges_tierRow _ r program row).2.2, (charges_tierRow _ r program row).2.2]
  · rw [heq ledger, show o.tiered r = c from heq o.ledger]
    exact grantsNoMore_refl c

/-- What a rule contributes that applies, if its rate is not negative. -/
theorem grantsNoMore_applied (replaced : Bool)
    (hrate : ∀ composition rate cap, r.effect = .flat composition rate cap → 0 ≤ rate)
    (hrates : ∀ program ∈ o.book.scheme.tierProgram, ∀ row ∈ program.levels, 0 ≤ row.rate)
    (more : ∀ key, o.ledger.get key ≤ ledger.get key) :
    ({ o with ledger }.applied replaced r).GrantsNoMore (o.applied replaced r) := by
  unfold applied
  cases heffect : r.effect with
  | flat composition rate cap =>
    show Contribution.GrantsNoMore
      (if o.hits r then { o with ledger }.flat r rate cap else .nothing)
      (if o.hits r then o.flat r rate cap else .nothing)
    split
    next => exact grantsNoMore_flat (hrate composition rate cap heffect) more cap
    next => exact grantsNoMore_refl _
  | tiered => exact grantsNoMore_tiered more hrates
  | base | flexible | fixedBonus | observer | unsupported => exact grantsNoMore_refl _

/-- What a position contributes, if the ledgers stand alike in the counter of its mission gate. -/
theorem grantsNoMore_contribution (replaced : Bool) {position : String × Option (Rule ℚ)}
    (hrate : ∀ r ∈ position.2, ∀ composition rate cap,
      r.effect = .flat composition rate cap → 0 ≤ rate)
    (hrates : ∀ program ∈ o.book.scheme.tierProgram, ∀ row ∈ program.levels, 0 ≤ row.rate)
    (agree : ∀ r ∈ position.2, ∀ gate ∈ r.gates.mission,
      o.ledger.get gate.key = ledger.get gate.key)
    (more : ∀ key, o.ledger.get key ≤ ledger.get key) :
    ({ o with ledger }.contribution replaced position).GrantsNoMore
      (o.contribution replaced position) := by
  unfold contribution
  cases hrule : position.2 with
  | none => exact grantsNoMore_refl _
  | some r =>
    simp only [ruleContribution, gateState_congr (agree r hrule)]
    split
    next => exact grantsNoMore_refl _
    next =>
      split
      next => exact grantsNoMore_refl _
      next => exact grantsNoMore_refl _
      next => exact grantsNoMore_applied replaced (hrate r hrule) hrates more

end Occasion

/-! ## Quotes -/

namespace Quote

/-- Lines with no higher rates do not add up to more. -/
theorem rateOf_le {entries entries' : List (Option (QuoteLine ℚ))}
    (h : List.Forall₂ (Option.Rel QuoteLine.NoHigher) entries' entries) :
    rateOf entries'.reduceOption ≤ rateOf entries.reduceOption := by
  rw [rateOf_eq_sum, rateOf_eq_sum]
  induction h with
  | nil => exact le_rfl
  | cons hentry _ ih =>
    cases hentry with
    | none => simpa only [List.reduceOption_cons_of_none] using ih
    | some hline =>
      simp only [List.reduceOption_cons_of_some, List.map_cons, List.sum_cons]
      exact add_le_add hline.rate ih

theorem tagsOf_congr {parts parts' : List (Contribution ℚ)}
    (h : List.Forall₂ Contribution.GrantsNoMore parts' parts) : tagsOf parts' = tagsOf parts := by
  induction h with
  | nil => rfl
  | cons hpart _ ih =>
    unfold tagsOf at ih ⊢
    rw [List.filterMap_cons, List.filterMap_cons, hpart.missionTag, ih]

end Quote

namespace RuleBook

/-- Position by position a card contributes no more. -/
theorem forall₂_contributions {scheme : Scheme ℚ}
    (hrates : ∀ program ∈ scheme.tierProgram, ∀ row ∈ program.levels, 0 ≤ row.rate) {card : Card}
    {o : Occasion ℚ} (hbook : o.book = ofScheme scheme) {ledger : Ledger ℚ}
    (agree : ∀ r ∈ (ofScheme scheme).rulesOf card, ∀ gate ∈ r.gates.mission,
      o.ledger.get gate.key = ledger.get gate.key)
    (more : ∀ key, o.ledger.get key ≤ ledger.get key) :
    List.Forall₂ Contribution.GrantsNoMore ((ofScheme scheme).contributions { o with ledger } card)
      ((ofScheme scheme).contributions o card) := by
  unfold contributions
  rw [replacer?_congr agree, List.forall₂_map_left_iff, List.forall₂_map_right_iff,
    List.forall₂_same]
  intro position hposition
  have hlisted : ∀ r ∈ position.2, r ∈ (ofScheme scheme).rulesOf card :=
    fun r hr => mem_rulesOf.mpr ⟨position, hposition, hr⟩
  refine Occasion.grantsNoMore_contribution _ ?_ ?_ (fun r hr => agree r (hlisted r hr)) more
  · intro r hr composition rate cap heffect
    have hmem : r ∈ (Rule.compileAll scheme.rules).values :=
      mem_values_of_mem_rulesOf (hlisted r hr)
    exact not_lt.mp (Rule.rate_of_mem_compileAll hmem heffect).2
  · rw [hbook]
    exact hrates

/-- **More usage never earns more.** Between two ledgers that stand alike in the counters of the
mission gates of a card, and the second no lower in any other, the quotes have the same rule in the
place of the base rate, the same mission tags and lines at the same positions; but no line has a
higher rate, and so the rates do not add up to more. And whatever the ledger, a rule with a limit
that has been reached shows that it is capped, with no rate. -/
theorem quote_antitone (scheme : Scheme ℚ)
    (hrates : ∀ program ∈ scheme.tierProgram, ∀ row ∈ program.levels, 0 ≤ row.rate) (card : Card)
    (amount : ℚ) (rawCategory : String) (mode : DisplayMode) (settings : Settings)
    {ledger ledger' : Ledger ℚ}
    (agree : ∀ r ∈ (ofScheme scheme).rulesOf card, ∀ gate ∈ r.gates.mission,
      ledger.get gate.key = ledger'.get gate.key)
    (more : ∀ key, ledger.get key ≤ ledger'.get key) :
    let b := ofScheme scheme
    let o (ledger : Ledger ℚ) := b.occasion card amount rawCategory ledger settings
    let q (ledger : Ledger ℚ) := b.quote card amount rawCategory mode ledger settings
    let entries (ledger : Ledger ℚ) := b.entries (o ledger) card
    (q ledger').replacer = (q ledger).replacer ∧
    (q ledger').missionTags = (q ledger).missionTags ∧
    ((∀ ledger, (q ledger).Itemizes card (entries ledger)) ∧
      List.Forall₂ (Option.Rel QuoteLine.NoHigher) (entries ledger') (entries ledger)) ∧
    (q ledger').totalRate ≤ (q ledger).totalRate ∧
    ∀ used n r rate restraint, b.ruleAt? card n = some r → (o used).Earns r rate restraint →
      (∃ limit ∈ restraint.limits, limit.limit ≤ used.get limit.key) →
      ∃ line, (entries used)[n]? = some (some line) ∧ line.status = .capped ∧ line.rate = 0 := by
  intro b o q entries
  have hparts : List.Forall₂ Contribution.GrantsNoMore (b.contributions (o ledger') card)
      (b.contributions (o ledger) card) :=
    forall₂_contributions (o := o ledger) hrates rfl agree more
  have hitemizes : ∀ ledger, (q ledger).Itemizes card (entries ledger) :=
    fun ledger => itemizes_quote scheme card amount rawCategory mode ledger settings
  have hentries : List.Forall₂ (Option.Rel QuoteLine.NoHigher) (entries ledger')
      (entries ledger) :=
    List.forall₂_map_left_iff.mpr (List.forall₂_map_right_iff.mpr (hparts.imp fun _ _ h => h.line))
  refine ⟨?_, Quote.tagsOf_congr hparts, ⟨hitemizes, hentries⟩, ?_, ?_⟩
  · exact congrArg (Option.map _) (replacer?_congr (o := o ledger) agree)
  · have hsum := Quote.rateOf_le hentries
    rwa [← (hitemizes ledger).lines_eq, ← (hitemizes ledger').lines_eq] at hsum
  · intro used n r rate restraint hr hearns hreached
    obtain ⟨line, hline, hcapped⟩ := hearns.exists_capped_line hreached _
    exact ⟨line, (getElem?_entries_of_ruleAt? hr).trans (congrArg some hline), hcapped⟩

/-- A cap on two counters, one on spending, a tier program and a bonus that a mission keeps locked:
the second counter of the first is used up, the next two leave a part, and the bonus stays
locked. -/
theorem quote_antitone_usedUp :
    let scheme : Scheme ℚ :=
      { Sample.single
          [((RuleSpec.flat "dining" (1 / 10) ["dining"]).capped .reward "k" 300).cappedAgain
              "shared" 200,
            (RuleSpec.flat "online" (1 / 20) ["dining"]).capped .spending "s" 2000,
            .ofKind "tier" .tieredCapped,
            (RuleSpec.flat "bonus" (3 / 100) ["dining"]).gatedByMission "m" 50] with
        tierProgram := some ⟨"program", 1, [⟨1, 1 / 50, 40⟩], "travel", none, none⟩ }
    let card : Card := .held "card" "cash" ["dining", "online", "tier", "bonus"]
    let b := RuleBook.ofScheme scheme
    let ledger : Ledger ℚ := Ledger.empty.add (.configured "k") 150
    let ledger' := ((ledger.add (.configured "shared") 200).add (.configured "s") 1500).add
      (.tierReward "program") 30
    let q (ledger : Ledger ℚ) := b.quote card 1000 "dining" .cash ledger Sample.settings
    (q ledger').totalRate ≤ (q ledger).totalRate ∧
    (q ledger).lines.map (fun line => (line.status, line.rate)) =
      [(.active, 1 / 10), (.active, 1 / 20), (.active, 1 / 50), (.locked, 0)] ∧
    (q ledger').lines.map (fun line => (line.status, line.rate)) =
      [(.capped, 0), (.partly, 1 / 40), (.partly, 1 / 100), (.locked, 0)] ∧
    ∃ line, (b.entries (b.occasion card 1000 "dining" ledger' Sample.settings) card)[0]? =
      some (some line) ∧ line.status = .capped ∧ line.rate = 0 := by
  intro scheme card b ledger ledger' q
  have hrates : ∀ program ∈ scheme.tierProgram, ∀ row ∈ program.levels, 0 ≤ row.rate := by
    decide +kernel
  have hagree : ∀ r ∈ b.rulesOf card, ∀ gate ∈ r.gates.mission,
      ledger.get gate.key = ledger'.get gate.key := by decide +kernel
  have hmore : ∀ key, ledger.get key ≤ ledger'.get key := fun key =>
    ((Ledger.get_le_get_add _ _ (by decide)).trans (Ledger.get_le_get_add _ _ (by decide))).trans
      (Ledger.get_le_get_add _ _ (by decide))
  obtain ⟨-, -, -, htotal, hcapped⟩ :=
    quote_antitone scheme hrates card 1000 "dining" .cash Sample.settings hagree hmore
  refine ⟨htotal, by decide +kernel, by decide +kernel, ?_⟩
  have hdining : b.ruleAt? card 0 = some ⟨"dining", "dining", ["dining"], .none,
      .flat .add (1 / 10) (some ⟨.configured "k", 300, .reward,
        some ⟨.configured "shared", 200⟩⟩)⟩ := by decide +kernel
  exact hcapped ledger' 0 _ _ _ hdining (.flat rfl (by decide +kernel) (by decide +kernel))
    ⟨⟨.configured "shared", 200⟩, by decide +kernel, by decide +kernel⟩

end RuleBook

end CardRewards
