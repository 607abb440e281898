import CardRewards.Proofs.Caps.Limit
import CardRewards.Proofs.Quote.Counters
import CardRewards.Proofs.Quote.Reward
import CardRewards.Scheme.Sample
import Mathlib.Algebra.BigOperators.Group.List.Basic
import Mathlib.Algebra.Order.Group.MinMax
import Mathlib.Data.List.Find

/-!
# Splitting a purchase

A customer who pays in two parts, the second after the first has been booked, gets what one payment
would have given: `nativeValue_quote_add`. A rule that asks for no amount and no mission depends on
the amount and the counters in at most one way: through its cap on rewards, through its cap on
spending, or through the row of the tier program (`Occasion.dependence`). Of each limit the first
part leaves exactly what the second one finds, since booking writes to the counters of the limit
what the first part took of it, and nothing else.

That is so on a card where one position at most is under a cap and one at most is tiered, because a
quote charges one cap and one tier program only, and where the counters are all different
(`RuleBook.Splittable`).
-/

namespace CardRewards

/-- A rule that applies whatever the amount is and whatever has been spent on missions. -/
def Rule.Ungated {α : Type} (r : Rule α) : Prop :=
  r.gates.minSpend = none ∧ r.gates.minSingleSpend = none ∧ r.gates.mission = none

instance {α : Type} [DecidableEq α] (r : Rule α) : Decidable r.Ungated :=
  inferInstanceAs (Decidable (_ ∧ _ ∧ _))

/-- Whether a rule grants by the tier program. -/
def Rule.isTiered {α : Type} (r : Rule α) : Bool :=
  match r.effect with
  | .tiered => true
  | _ => false

/-- A card on which one position at most is under a cap and one at most is tiered, no rule asks for
an amount or a mission, and the counters of caps, card, tier program and missions are all
different. -/
structure RuleBook.Splittable {α : Type} (b : RuleBook α) (card : Card) : Prop where
  oneCap : (b.rulesOf card).countP (·.cap?.isSome) ≤ 1
  oneTier : (b.rulesOf card).countP (·.isTiered) ≤ 1
  ungated : ∀ r ∈ b.rulesOf card, r.Ungated
  apart : (b.capKeysOf card ++ b.generatedKeysOf card).Nodup

/-! ## What a rule depends on -/

namespace Occasion

section

variable {α : Type} {o o' : Occasion α}

/-- Two occasions that differ in nothing but the amount and the counters. -/
structure Alike (o o' : Occasion α) : Prop where
  book : o'.book = o.book
  category : o'.category = o.category
  settings : o'.settings = o.settings

theorem Alike.hits (h : o.Alike o') (r : Rule α) : o'.hits r = o.hits r := by
  rw [Occasion.hits, Occasion.hits, h.book, h.category]

theorem Alike.hitsOrOpen (h : o.Alike o') (r : Rule α) : o'.hitsOrOpen r = o.hitsOrOpen r := by
  rw [Occasion.hitsOrOpen, Occasion.hitsOrOpen, h.hits]

theorem Alike.bucket? (h : o.Alike o') : o'.bucket? = o.bucket? := by
  rw [Occasion.bucket?, Occasion.bucket?, h.book, h.category]

variable [Amount α] {r : Rule α}

/-- Without gates on amounts and missions only the promotion decides. -/
theorem gateState_of_ungated (h : r.Ungated) (o : Occasion α) :
    o.gateState r =
      if r.gates.toggle.any fun toggle => !o.settings.isEnabled toggle then .failed
      else .passed := by
  obtain ⟨hspend, hsingle, hmission⟩ := h
  simp [gateState, hspend, hsingle, hmission]

theorem Alike.gateState (h : o.Alike o') (hr : r.Ungated) : o'.gateState r = o.gateState r := by
  rw [gateState_of_ungated hr, gateState_of_ungated hr, h.settings]

theorem Alike.isReplacedBy (h : o.Alike o') (hr : r.Ungated) :
    o'.isReplacedBy r = o.isReplacedBy r := by
  rw [Occasion.isReplacedBy, Occasion.isReplacedBy, h.hits, h.gateState hr]

/-- In what way a rule depends on the amount and the counters. -/
inductive Dependence (o : Occasion α) (replaced : Bool) (r : Rule α) : Prop
  | steady (c : Contribution α)
      (eq : ∀ o', o.Alike o' → o'.ruleContribution replaced r = c)
  | rewardCapped (rate : α) (cap : Cap α) (capped : r.cap? = some cap) (mode : cap.mode = .reward)
      (eq : ∀ o', o.Alike o' → o'.ruleContribution replaced r = o'.rewardCapped r rate cap)
  | spendingCapped (rate : α) (cap : Cap α) (capped : r.cap? = some cap)
      (mode : cap.mode = .spending)
      (eq : ∀ o', o.Alike o' → o'.ruleContribution replaced r = o'.spendingCapped r rate cap)
  | tierRow (program : TierProgram α) (row : TierLevel α) (tiered : r.isTiered = true)
      (offered : o.book.scheme.tierProgram = some program)
      (eq : ∀ o', o.Alike o' → o'.ruleContribution replaced r = o'.tierRow r program row)

/-- What a supported rule contributes once it passes depends on the occasion as its effect does. -/
theorem dependence_of_passed (replaced : Bool) (hr : r.Ungated) (hdefect : r.defect? = none)
    (passed : o.gateState r = .passed) : o.Dependence replaced r := by
  have happlied : ∀ o', o.Alike o' → o'.ruleContribution replaced r = o'.applied replaced r := by
    intro o' h
    simp only [ruleContribution, hdefect, h.gateState hr, passed]
  -- each effect has one place, or none, where the amount and the counters come in
  cases heffect : r.effect with
  | flat composition rate cap =>
    by_cases hits : o.hits r = true
    · have hflat : ∀ o', o.Alike o' → o'.ruleContribution replaced r = o'.flat r rate cap := by
        intro o' h
        rw [happlied o' h, applied, heffect]
        simp only [h.hits, hits, if_true]
      cases cap with
      | none => exact .steady _ hflat
      | some cap =>
        have hcap : r.cap? = some cap := by simp [Rule.cap?, heffect]
        cases hmode : cap.mode with
        | reward =>
          refine .rewardCapped rate cap hcap hmode fun o' h => ?_
          rw [hflat o' h, flat, hmode]
        | spending =>
          refine .spendingCapped rate cap hcap hmode fun o' h => ?_
          rw [hflat o' h, flat, hmode]
    · refine .steady .nothing fun o' h => ?_
      rw [happlied o' h, applied, heffect]
      simp only [h.hits, hits, Bool.false_eq_true, if_false]
  | tiered =>
    have htiered : ∀ o', o.Alike o' → o'.ruleContribution replaced r = o'.tiered r := by
      intro o' h
      rw [happlied o' h, applied, heffect]
    by_cases hoffered : ∃ program row, o.Tiers r program row
    · obtain ⟨program, row, htiers⟩ := hoffered
      refine .tierRow program row (by simp [Rule.isTiered, heffect]) htiers.offered fun o' h => ?_
      have htiers' : o'.Tiers r program row :=
        ⟨heffect, (h.gateState hr).trans passed, h.settings ▸ htiers.level,
          (h.hitsOrOpen r).trans htiers.hits, h.book ▸ htiers.offered, h.settings ▸ htiers.row⟩
      rw [htiered o' h, htiers'.tiered_eq]
    · -- no row is in force, so the rule says so or nothing
      refine .steady (o.tiered r) fun o' h => ?_
      rw [htiered o' h]
      unfold Occasion.tiered
      rw [h.settings, h.hitsOrOpen, h.book]
      split
      next => rfl
      next level =>
        split
        next => rfl
        next hits =>
          split
          next => rfl
          next program hprogram =>
            split
            next => rfl
            next row hrow =>
              exact absurd ⟨program, row, heffect, passed, level, by simpa using hits, hprogram,
                hrow⟩ hoffered
  | base rate =>
    refine .steady (o.applied replaced r) fun o' h => ?_
    rw [happlied o' h, applied, applied, heffect]
  | flexible rate =>
    refine .steady (o.applied replaced r) fun o' h => ?_
    rw [happlied o' h, applied, applied, heffect]
    simp only [flexible, h.hitsOrOpen, h.bucket?, h.settings]
  | fixedBonus rate units =>
    refine .steady (o.applied replaced r) fun o' h => ?_
    rw [happlied o' h, applied, applied, heffect]
    simp only [fixedBonus, h.hitsOrOpen, h.bucket?]
  | observer mission =>
    refine .steady (o.applied replaced r) fun o' h => ?_
    rw [happlied o' h, applied, applied, heffect]
    simp only [h.hitsOrOpen]
  | unsupported defect => simp [Rule.defect?, heffect] at hdefect

theorem dependence (o : Occasion α) (replaced : Bool) (hr : r.Ungated) :
    o.Dependence replaced r := by
  cases hdefect : r.defect? with
  | some defect =>
    refine .steady (o.ruleContribution replaced r) fun o' _ => ?_
    simp only [ruleContribution, hdefect]
  | none =>
    cases hgate : o.gateState r with
    | passed => exact dependence_of_passed replaced hr hdefect hgate
    | failed =>
      refine .steady .nothing fun o' h => ?_
      simp only [ruleContribution, hdefect, h.gateState hr, hgate]
    | locked progress required =>
      rw [gateState_of_ungated hr] at hgate
      split at hgate
      · cases hgate
      · cases hgate

end

end Occasion

/-! ## Charges with one position behind them -/

section

variable {β γ : Type}

theorem eq_of_countP_le_one {p : β → Bool} {l : List β} (h : l.countP p ≤ 1) {x y : β} (hx : x ∈ l)
    (hy : y ∈ l) (hpx : p x = true) (hpy : p y = true) : x = y := by
  rw [List.countP_eq_length_filter] at h
  have hx' : x ∈ l.filter p := List.mem_filter.mpr ⟨hx, hpx⟩
  have hy' : y ∈ l.filter p := List.mem_filter.mpr ⟨hy, hpy⟩
  obtain ⟨z, hz⟩ := List.length_eq_one_iff.mp (Nat.le_antisymm h (List.length_pos_of_mem hx'))
  rw [hz, List.mem_singleton] at hx' hy'
  rw [hx', hy']

/-- The first result is that of an element that no other result differs from. -/
theorem findSome?_eq_of_sole {f : β → Option γ} {x : β} {l : List β} (hx : x ∈ l)
    (h : ∀ y ∈ l, f y = none ∨ f y = f x) : l.findSome? f = f x := by
  cases hfound : l.findSome? f with
  | none => exact (List.findSome?_eq_none_iff.mp hfound x hx).symm
  | some z =>
    obtain ⟨y, hy, hz⟩ := List.exists_of_findSome?_eq_some hfound
    rcases h y hy with hnone | heq
    · rw [hz] at hnone
      exact nomatch hnone
    · rw [← hz, heq]

end

namespace RuleBook

variable {α : Type} [Amount α] {b : RuleBook α} {card : Card} {amount : α} {rawCategory : String}
  {mode : DisplayMode} {ledger : Ledger α} {settings : Settings} {r : Rule α}

/-- If one position at most holds a rule that can make a charge of some sort, then what it charges
is the first charge of that sort. -/
theorem findSome?_contributions {γ : Type} {f : Contribution α → Option γ} {p : Rule α → Bool}
    {o : Occasion α} (sole : (b.rulesOf card).countP p ≤ 1) (hr : r ∈ b.rulesOf card)
    (hp : p r = true)
    (source : ∀ position, (f (o.contribution (b.replacer? o card).isSome position)).isSome →
      ∃ r', position.2 = some r' ∧ p r' = true) :
    (b.contributions o card).findSome? f =
      f (o.ruleContribution (b.replacer? o card).isSome r) := by
  obtain ⟨position, hposition, hrule⟩ := mem_rulesOf.mp hr
  rw [contributions, List.findSome?_map, findSome?_eq_of_sole hposition]
  · simp only [Function.comp_apply, Occasion.contribution, hrule]
  · -- another position that makes such a charge holds the same rule, so it makes the same charge
    intro other hother
    by_cases hcharge : (f (o.contribution (b.replacer? o card).isSome other)).isSome
    · obtain ⟨r', hr', hp'⟩ := source other hcharge
      have heq := eq_of_countP_le_one sole (mem_rulesOf.mpr ⟨other, hother, hr'⟩) hr hp' hp
      refine .inr ?_
      simp only [Function.comp_apply, Occasion.contribution, hrule, hr', heq]
    · exact .inl (by simpa using hcharge)

theorem capCharge_of_sole (sole : (b.rulesOf card).countP (·.cap?.isSome) ≤ 1)
    (hr : r ∈ b.rulesOf card) (hcap : r.cap?.isSome = true) :
    let o := b.occasion card amount rawCategory ledger settings
    (b.quote card amount rawCategory mode ledger settings).capCharge =
      Quote.capChargeOf [o.ruleContribution (b.replacer? o card).isSome r] := by
  intro o
  have hreward : (b.contributions o card).findSome? (·.rewardCharge) =
      (o.ruleContribution (b.replacer? o card).isSome r).rewardCharge := by
    refine findSome?_contributions sole hr hcap fun position hcharge => ?_
    obtain ⟨charge, hcharge⟩ := Option.isSome_iff_exists.mp hcharge
    obtain ⟨r', rate, cap, reward, hr', hgrants, -⟩ := Occasion.rewardCharge_eq_some_iff.mp hcharge
    obtain ⟨composition, heffect⟩ := hgrants.effect
    exact ⟨r', hr', by simp [Rule.cap?, heffect]⟩
  have hspending : (b.contributions o card).findSome? (·.spendingCharge) =
      (o.ruleContribution (b.replacer? o card).isSome r).spendingCharge := by
    refine findSome?_contributions sole hr hcap fun position hcharge => ?_
    obtain ⟨key, hcharge⟩ := Option.isSome_iff_exists.mp hcharge
    obtain ⟨r', rate, cap, hr', hcounts, -⟩ := Occasion.spendingCharge_eq_some_iff.mp hcharge
    obtain ⟨composition, heffect⟩ := hcounts.effect
    exact ⟨r', hr', by simp [Rule.cap?, heffect]⟩
  show Quote.capChargeOf (b.contributions o card) = _
  rw [Quote.capChargeOf, Quote.capChargeOf, hreward, hspending]
  simp only [List.findSome?_singleton]

theorem tierCharge_of_sole (sole : (b.rulesOf card).countP (·.isTiered) ≤ 1)
    (hr : r ∈ b.rulesOf card) (htiered : r.isTiered = true) :
    let o := b.occasion card amount rawCategory ledger settings
    (b.quote card amount rawCategory mode ledger settings).tierCharge =
      (o.ruleContribution (b.replacer? o card).isSome r).tierCharge := by
  intro o
  refine findSome?_contributions sole hr htiered fun position hcharge => ?_
  obtain ⟨charge, hcharge⟩ := Option.isSome_iff_exists.mp hcharge
  obtain ⟨r', program, row, hr', htiers, -⟩ := Occasion.tierCharge_eq_some_iff.mp hcharge
  exact ⟨r', hr', by simp [Rule.isTiered, htiers.effect]⟩

end RuleBook

/-! ## What booking the first part leaves -/

namespace Occasion

open Amount (portion portion_of_nonpos portion_of_pos portion_max_zero portion_add
  portion_add_spending headroom headroom_add)

variable {o o' : Occasion ℚ} {r : Rule ℚ} {rate : ℚ} {cap : Cap ℚ} {limit : Limit ℚ} {q : Quote ℚ}

/-- A cap on rewards is charged, at each of its limits, what it grants of the reward. -/
theorem total_capCharges_of_reward
    (hcharge : q.capCharge = Quote.capChargeOf [o.rewardCapped r rate cap])
    (hmode : cap.mode = .reward) (hdistinct : (cap.rewardLimits.map (·.key)).Nodup)
    (hlimit : limit ∈ cap.rewardLimits) :
    Charge.total q.capCharges limit.key =
      max (portion (o.amount * rate) (o.rewardHeadroom cap)) 0 := by
  rw [Quote.capChargeOf, List.findSome?_singleton, List.findSome?_singleton,
    rewardCharge_eq_portion, (o.charges_rewardCapped r rate cap).1] at hcharge
  by_cases hpos : 0 < portion (o.amount * rate) (o.rewardHeadroom cap)
  · rw [if_pos hpos] at hcharge
    have hcharges : q.capCharges = (cap.rewardLimits.map (·.key)).map
        fun key => ⟨key, portion (o.amount * rate) (o.rewardHeadroom cap)⟩ := by
      simp only [Quote.capCharges, hcharge, if_pos hpos, Cap.rewardLimits, hmode]
      cases cap.secondary <;> rfl
    have hcount := List.count_eq_one_of_mem hdistinct (List.mem_map_of_mem hlimit)
    rw [hcharges, Charge.total_map, hcount, Nat.cast_one, one_mul, max_eq_left hpos.le]
  · rw [if_neg hpos] at hcharge
    rw [Quote.capCharges, hcharge, max_eq_right (not_lt.mp hpos)]
    rfl

/-- A cap on spending is charged the amount, as long as something of it is left. -/
theorem total_capCharges_of_spending
    (hcharge : q.capCharge = Quote.capChargeOf [o.spendingCapped r rate cap]) :
    Charge.total q.capCharges cap.key =
      if headroom cap.limit (o.ledger.get cap.key) ≤ 0 then 0 else q.amount := by
  rw [Quote.capChargeOf, List.findSome?_singleton, List.findSome?_singleton,
    spendingCharge_spendingCapped, (o.charges_spendingCapped r rate cap).1] at hcharge
  by_cases hrest : headroom cap.limit (o.ledger.get cap.key) ≤ 0
  · rw [if_pos hrest] at hcharge ⊢
    rw [Quote.capCharges, hcharge]
    rfl
  · rw [if_neg hrest] at hcharge ⊢
    rw [Quote.capCharges, hcharge]
    simp [Charge.total_cons]

/-- What the caps leave when each of their counters has grown by the same. -/
theorem rewardHeadroom_of_used {delta : ℚ} (hdelta : 0 ≤ delta) (hmode : cap.mode = .reward)
    (hused : ∀ limit ∈ cap.rewardLimits,
      o'.ledger.get limit.key = o.ledger.get limit.key + delta) :
    o'.rewardHeadroom cap = max (o.rewardHeadroom cap - delta) 0 := by
  rw [Cap.rewardLimits, hmode] at hused
  obtain ⟨hprimary, hsecondary⟩ := List.forall_mem_cons.mp hused
  simp only at hprimary
  unfold rewardHeadroom
  cases hsecond : cap.secondary with
  | none => simp only [hprimary, headroom_add hdelta]
  | some second =>
    have hsecondary := hsecondary second (by simp [hsecond])
    simp only [hprimary, hsecondary, headroom_add hdelta, Amount.smaller_eq_min]
    -- what is left under both limits is the smaller rest, and both rests have lost the same
    rw [← max_min_distrib_right, min_sub_sub_right]

/-! ## Two parts under a limit -/

/-- An amount spent at once or in two parts, the second one later. -/
structure SplitInto (whole first second : Occasion ℚ) : Prop where
  amount : whole.amount = first.amount + second.amount
  ledger : whole.ledger = first.ledger
  firstPos : 0 < first.amount
  secondPos : 0 < second.amount

variable {whole first second : Occasion ℚ}

theorem SplitInto.wholePos (h : whole.SplitInto first second) : 0 < whole.amount := by
  rw [h.amount]
  exact add_pos h.firstPos h.secondPos

theorem SplitInto.rewardHeadroom (h : whole.SplitInto first second) (cap : Cap ℚ) :
    whole.rewardHeadroom cap = first.rewardHeadroom cap := by
  rw [Occasion.rewardHeadroom, Occasion.rewardHeadroom, h.ledger]

theorem SplitInto.pays_rewardCapped (h : whole.SplitInto first second) (r : Rule ℚ) (rate : ℚ)
    (hmode : cap.mode = .reward)
    (hused : ∀ limit ∈ cap.rewardLimits,
      second.ledger.get limit.key = first.ledger.get limit.key +
        max (portion (first.amount * rate) (first.rewardHeadroom cap)) 0) :
    (whole.rewardCapped r rate cap).pays whole.amount =
      (first.rewardCapped r rate cap).pays first.amount +
        (second.rewardCapped r rate cap).pays second.amount := by
  rw [Occasion.pays_rewardCapped h.wholePos, Occasion.pays_rewardCapped h.firstPos,
    Occasion.pays_rewardCapped h.secondPos, h.rewardHeadroom, h.amount,
    rewardHeadroom_of_used (le_max_right _ _) hmode hused, portion_max_zero]
  exact portion_add h.firstPos h.secondPos rate _

theorem SplitInto.pays_spendingCapped (h : whole.SplitInto first second) (r : Rule ℚ) (rate : ℚ)
    (hused : second.ledger.get cap.key = first.ledger.get cap.key +
      if headroom cap.limit (first.ledger.get cap.key) ≤ 0 then 0 else first.amount) :
    (whole.spendingCapped r rate cap).pays whole.amount =
      (first.spendingCapped r rate cap).pays first.amount +
        (second.spendingCapped r rate cap).pays second.amount := by
  have hdelta : 0 ≤
      if headroom cap.limit (first.ledger.get cap.key) ≤ 0 then 0 else first.amount := by
    split
    next => exact le_refl 0
    next => exact h.firstPos.le
  rw [Occasion.pays_spendingCapped h.wholePos, Occasion.pays_spendingCapped h.firstPos,
    Occasion.pays_spendingCapped h.secondPos, ← mul_add, h.amount, h.ledger, hused,
    headroom_add hdelta, portion_max_zero]
  exact congrArg (rate * ·) (portion_add_spending h.secondPos first.amount _)

theorem SplitInto.pays_tierRow (h : whole.SplitInto first second) (r : Rule ℚ)
    (program : TierProgram ℚ) (row : TierLevel ℚ)
    (hused : second.ledger.get (.tierReward program.id) =
      first.ledger.get (.tierReward program.id) + max (first.tierGranted program row) 0) :
    (whole.tierRow r program row).pays whole.amount =
      (first.tierRow r program row).pays first.amount +
        (second.tierRow r program row).pays second.amount := by
  rw [Occasion.pays_tierRow h.wholePos, Occasion.pays_tierRow h.firstPos,
    Occasion.pays_tierRow h.secondPos, tierGranted_eq_portion, tierGranted_eq_portion,
    tierGranted_eq_portion, h.ledger, h.amount, hused, headroom_add (le_max_right _ _),
    portion_max_zero, tierGranted_eq_portion]
  exact portion_add h.firstPos h.secondPos row.rate _

end Occasion

namespace RuleBook

namespace Splittable

variable {b : RuleBook ℚ} {card : Card} {x y : ℚ} {rawCategory : String} {mode : DisplayMode}
  {ledger : Ledger ℚ} {settings : Settings} {r : Rule ℚ} {cap : Cap ℚ}

/-- A counter that a cap names is charged for the cap alone. -/
theorem get_post_of_cap (h : b.Splittable card) {key : CounterKey} (hkey : key ∈ b.capKeysOf card) :
    (ledger.post (b.quote card x rawCategory mode ledger settings).charges).get key =
      ledger.get key +
        Charge.total (b.quote card x rawCategory mode ledger settings).capCharges key := by
  rw [Ledger.get_post, total_charges_of_cap (List.disjoint_of_nodup_append h.apart hkey)]

/-- The limits of a cap have counters of their own. -/
theorem nodup_rewardLimits (h : b.Splittable card) (hr : r ∈ b.rulesOf card)
    (hcap : r.cap? = some cap) (hmode : cap.mode = .reward) :
    (cap.rewardLimits.map (·.key)).Nodup := by
  have huses := (List.nodup_flatMap.mp (List.Nodup.of_append_left h.apart)).1 r hr
  simp only [Rule.capUses, hcap, hmode] at huses
  rw [Cap.rewardLimits, hmode]
  cases hsecond : cap.secondary with
  | none => exact List.nodup_singleton cap.key
  | some second =>
    rw [hsecond] at huses
    exact huses

theorem mem_capKeysOf_of_mem_rewardLimits (hr : r ∈ b.rulesOf card) (hcap : r.cap? = some cap)
    (hmode : cap.mode = .reward) {limit : Limit ℚ} (hlimit : limit ∈ cap.rewardLimits) :
    limit.key ∈ b.capKeysOf card := by
  rw [Cap.rewardLimits, hmode] at hlimit
  rcases List.mem_cons.mp hlimit with rfl | hlimit
  · exact key_mem_capKeysOf hr hcap
  · exact secondary_mem_capKeysOf hr hcap hmode (Option.mem_toList.mp hlimit)

/-- A rule pays on a whole amount what it pays on its first part and then, when that has been
booked, on the second. -/
theorem pays_rule_add (h : b.Splittable card) (hx : 0 < x) (hy : 0 < y) (hr : r ∈ b.rulesOf card) :
    let whole := b.occasion card (x + y) rawCategory ledger settings
    let first := b.occasion card x rawCategory ledger settings
    let later := ledger.post (b.quote card x rawCategory mode ledger settings).charges
    let second := b.occasion card y rawCategory later settings
    let replaced := (b.replacer? first card).isSome
    (whole.ruleContribution replaced r).pays whole.amount =
      (first.ruleContribution replaced r).pays first.amount +
        (second.ruleContribution replaced r).pays second.amount := by
  intro whole first later second replaced
  have hsplit : whole.SplitInto first second := ⟨rfl, rfl, hx, hy⟩
  have hwhole : first.Alike whole := ⟨rfl, rfl, rfl⟩
  have hfirst : first.Alike first := ⟨rfl, rfl, rfl⟩
  have hsecond : first.Alike second := ⟨rfl, rfl, rfl⟩
  cases first.dependence replaced (h.ungated r hr) with
  | steady c eq =>
    rw [eq _ hwhole, eq _ hfirst, eq _ hsecond, hsplit.amount, Contribution.pays_add]
  | rewardCapped rate cap capped hmode eq =>
    have hcharge : (b.quote card x rawCategory mode ledger settings).capCharge =
        Quote.capChargeOf [first.rewardCapped r rate cap] := by
      rw [← eq _ hfirst]
      exact capCharge_of_sole h.oneCap hr (by rw [capped]; rfl)
    rw [eq _ hwhole, eq _ hfirst, eq _ hsecond]
    refine hsplit.pays_rewardCapped r rate hmode fun limit hlimit => ?_
    -- what is charged to the cap is all that its counters grow by
    rw [← Occasion.total_capCharges_of_reward hcharge hmode (h.nodup_rewardLimits hr capped hmode)
      hlimit]
    exact h.get_post_of_cap (mem_capKeysOf_of_mem_rewardLimits hr capped hmode hlimit)
  | spendingCapped rate cap capped hmode eq =>
    have hcharge : (b.quote card x rawCategory mode ledger settings).capCharge =
        Quote.capChargeOf [first.spendingCapped r rate cap] := by
      rw [← eq _ hfirst]
      exact capCharge_of_sole h.oneCap hr (by rw [capped]; rfl)
    rw [eq _ hwhole, eq _ hfirst, eq _ hsecond]
    refine hsplit.pays_spendingCapped r rate ?_
    refine (h.get_post_of_cap (key_mem_capKeysOf hr capped)).trans ?_
    rw [Occasion.total_capCharges_of_spending hcharge]
    rfl
  | tierRow program row tiered offered eq =>
    have hcharge : (b.quote card x rawCategory mode ledger settings).tierCharge =
        some (first.tierChargeOf program row) := by
      rw [← Occasion.tierCharge_tierRow first r, ← eq _ hfirst]
      exact tierCharge_of_sole h.oneTier hr tiered
    rw [eq _ hwhole, eq _ hfirst, eq _ hsecond]
    refine hsplit.pays_tierRow r program row ?_
    -- the counter of the program's rewards grows by the charge alone, since no cap names it
    have hmem : .tierReward program.id ∈ b.generatedKeysOf card :=
      b.tierKeys_subset card (by rw [tierKeys_eq (b := b) offered]; exact List.mem_cons_self ..)
    have hapart : .tierReward program.id ∉ b.capKeysOf card :=
      fun hcap => List.disjoint_of_nodup_append h.apart hcap hmem
    exact (Ledger.get_post _ _ _).trans (congrArg _ (total_charges_tierReward hcharge hapart))

/-- Without gates on amounts and missions the same rule takes the place of the base rate for every
amount and every ledger. -/
theorem replacer?_eq (h : b.Splittable card) {o o' : Occasion ℚ} (halike : o.Alike o') :
    b.replacer? o' card = b.replacer? o card :=
  List.find?_congr fun r hr => halike.isReplacedBy (h.ungated r hr)

end Splittable

/-- **Splitting a purchase does not change the reward**: on a card with one cap and one tiered rule
at most, without gates on amounts and missions and with counters that are all different, a whole
amount earns what its first part earns and then, when that has been booked, the second part. -/
theorem nativeValue_quote_add {b : RuleBook ℚ} {card : Card} (h : b.Splittable card) {x y : ℚ}
    (hx : 0 < x) (hy : 0 < y) (rawCategory : String) (mode : DisplayMode) (p : Profile ℚ) :
    let whole := b.quote card (x + y) rawCategory mode p.ledger p.settings
    let first := b.quote card x rawCategory mode p.ledger p.settings
    let later := p.book first
    let second := b.quote card y rawCategory mode later.ledger later.settings
    whole.nativeValue = first.nativeValue + second.nativeValue := by
  intro whole first later second
  have hwhole : (b.occasion card x rawCategory p.ledger p.settings).Alike
      (b.occasion card (x + y) rawCategory p.ledger p.settings) := ⟨rfl, rfl, rfl⟩
  have hsecond : (b.occasion card x rawCategory p.ledger p.settings).Alike
      (b.occasion card y rawCategory later.ledger later.settings) := ⟨rfl, rfl, rfl⟩
  rw [nativeValue_quote, nativeValue_quote, nativeValue_quote, contributions, contributions,
    contributions, h.replacer?_eq hwhole, h.replacer?_eq hsecond, List.map_map, List.map_map,
    List.map_map, ← List.sum_map_add]
  -- all three sums are over the positions of the card, so each position is split by itself
  refine congrArg List.sum (List.map_congr_left fun position hposition => ?_)
  simp only [Function.comp_apply, Occasion.contribution]
  cases hrule : position.2 with
  | some r => exact h.pays_rule_add hx hy (mem_rulesOf.mpr ⟨position, hposition, hrule⟩)
  | none => exact Contribution.pays_add _ x y

/-- A rule that replaces the base rate under two caps on rewards, one by tier, and an observer. -/
def limitedTwice : Scheme ℚ :=
  { Sample.single
      [.base "base" (1 / 100),
        ((RuleSpec.flat "dining" (1 / 10) ["dining"]).replacing.capped .reward "k" 300).cappedAgain
          "shared" 200,
        .ofKind "tier" .tieredCapped,
        { RuleSpec.ofKind "observer" .missionObserver with missionId := some "m" }] with
    tierProgram := some ⟨"program", 1, [⟨1, 1 / 50, 40⟩], "travel", none, none⟩ }

/-- Both parts together go beyond the second cap and beyond the limit of the tier, and the first
part beyond neither. -/
theorem nativeValue_quote_add_beyondLimits :
    let b := ofScheme limitedTwice
    let card : Card := .held "card" "cash" ["base", "dining", "tier", "observer"]
    let p : Profile ℚ := { Profile.empty with settings := Sample.settings }
    let reward (amount : ℚ) (p : Profile ℚ) :=
      (b.quote card amount "dining" .cash p.ledger p.settings).nativeValue
    let later := p.book (b.quote card 1500 "dining" .cash p.ledger p.settings)
    b.Splittable card ∧ reward (1500 + 1000) p = reward 1500 p + reward 1000 later ∧
      [reward 1500 p, reward 1000 later, reward 1000 p] = [180, 60, 120] := by
  intro b card p reward later
  have hsplittable : b.Splittable card :=
    ⟨by decide +kernel, by decide +kernel, by decide +kernel, by decide +kernel⟩
  refine ⟨hsplittable, ?_, by decide +kernel⟩
  exact nativeValue_quote_add hsplittable (by decide +kernel) (by decide +kernel) "dining" .cash p

end RuleBook

end CardRewards
