import CardRewards.Proofs.Caps.Limit
import CardRewards.Proofs.Quote.Reward
import CardRewards.Scheme.Sample
import Mathlib.Order.Bounds.Basic

/-!
# Closed forms

With exact amounts everything that a line under limits says follows from two numbers: what its rule
is after, and the least that a limit in force leaves. The rate pays the smaller of the two
(`Occasion.ClosedForm`), the status tells how they compare (`QuoteLine.Tells`), and the reward that
is charged to the limits is the one that the rate pays: `RuleBook.quote_closedForm`.

The limits in force are the rewards that a cap allows, on one counter or on two, the spending that
it allows, or the rewards of a level of the tier program (`Restraint`). The three are worked out by
different expressions, which all read: nothing if nothing is left, the rest if it is less than what
the rule is after, and else all of it.
-/

namespace CardRewards

/-! ## Limits in force -/

section

variable {α : Type}

/-- What holds a rule back. -/
inductive Restraint (α : Type) where
  | free
  /-- Limits on the rewards that may be granted, each with a counter of its own. -/
  | rewards (limits : List (Limit α))
  /-- A limit on the spending for which they are granted. -/
  | spending (limit : Limit α)

/-- What a cap in force holds a rule back by. A second counter limits rewards only. -/
def Cap.restraint (cap : Cap α) : Restraint α :=
  match cap.mode with
  | .reward => .rewards cap.rewardLimits
  | .spending => .spending ⟨cap.key, cap.limit⟩

/-- A rule grants its rate on an occasion, held back by the limits in force: a flat rule whose gates
let it apply and whose category matches, or a tiered one for which the program has a row. -/
inductive Occasion.Earns [Amount α] (o : Occasion α) (r : Rule α) : α → Restraint α → Prop
  | flat {composition : Composition} {rate : α} {cap : Option (Cap α)}
      (effect : r.effect = .flat composition rate cap) (passed : o.gateState r = .passed)
      (hits : o.hits r = true) : Earns o r rate (cap.elim .free Cap.restraint)
  | tiered {program : TierProgram α} {row : TierLevel α} (tiers : o.Tiers r program row) :
      Earns o r row.rate (.rewards [⟨.tierReward program.id, row.cap⟩])

end

/-! ## What a line says -/

/-- The status of a line tells how much limits leave of what was wanted: nothing, a part, or all. -/
structure QuoteLine.Tells (line : QuoteLine ℚ) (wanted rest : ℚ) : Prop where
  capped : line.status = .capped ↔ rest = 0
  partly : line.status = .partly ↔ 0 < rest ∧ rest < wanted
  active : line.status = .active ↔ 0 < rest ∧ wanted ≤ rest

namespace Occasion

/-- The least that limits leave, none of them less than nothing. -/
def LeastLeft (o : Occasion ℚ) (limits : List (Limit ℚ)) (rest : ℚ) : Prop :=
  IsLeast {left | ∃ limit ∈ limits, left = max (limit.limit - o.ledger.get limit.key) 0} rest

/-- What a line says under limits: its rate pays the smaller of what the rule is after and of what
the limits leave, and its status tells which of the two it is. -/
inductive ClosedForm (o : Occasion ℚ) (rate : ℚ) (line : QuoteLine ℚ) : Restraint ℚ → Prop
  | free (pays : line.rate * o.amount = o.amount * rate) (status : line.status = .active) :
      ClosedForm o rate line .free
  | rewards {limits : List (Limit ℚ)} {rest : ℚ} (least : o.LeastLeft limits rest)
      (pays : line.rate * o.amount = min (o.amount * rate) rest)
      (tells : line.Tells (o.amount * rate) rest) : ClosedForm o rate line (.rewards limits)
  | spending {limit : Limit ℚ} {rest : ℚ} (least : o.LeastLeft [limit] rest)
      (pays : line.rate * o.amount = rate * min o.amount rest)
      (tells : line.Tells o.amount rest) : ClosedForm o rate line (.spending limit)

end Occasion

/-! ## Comparing with what is left -/

namespace Amount

theorem headroom_nonneg (limit used : ℚ) : 0 ≤ headroom limit used := by
  rw [headroom_eq_max]
  exact le_max_right _ _

/-- Of what is not negative the smaller part is granted. -/
theorem portion_eq_min {full rest : ℚ} (hfull : 0 ≤ full) (hrest : 0 ≤ rest) :
    portion full rest = min full rest := by
  rcases hrest.eq_or_lt with rfl | hpos
  · rw [portion_of_nonpos (le_refl 0), min_eq_right hfull]
  · exact portion_of_pos hpos

end Amount

/-- Of three contributions, for nothing left, less than wanted and as much as wanted, the one in
place has a line that tells so. -/
theorem Contribution.exists_line_tells {exhausted partly full : Contribution ℚ} {wanted rest : ℚ}
    (hrest : 0 ≤ rest) (hexhausted : ∃ line, exhausted.line = some line ∧ line.status = .capped)
    (hpartly : ∃ line, partly.line = some line ∧ line.status = .partly)
    (hfull : ∃ line, full.line = some line ∧ line.status = .active) :
    ∃ line, (if rest ≤ 0 then exhausted else if rest < wanted then partly else full).line =
      some line ∧ line.Tells wanted rest := by
  rcases hrest.eq_or_lt with rfl | hpos
  · obtain ⟨line, hline, hstatus⟩ := hexhausted
    exact ⟨line, by rw [if_pos (le_refl 0), hline], by simp [hstatus], by simp [hstatus],
      by simp [hstatus]⟩
  rw [if_neg (not_le.mpr hpos)]
  by_cases hwithin : rest < wanted
  · obtain ⟨line, hline, hstatus⟩ := hpartly
    exact ⟨line, by rw [if_pos hwithin, hline], by simp [hstatus, hpos.ne'],
      by simp [hstatus, hpos, hwithin], by simp [hstatus, hwithin]⟩
  · obtain ⟨line, hline, hstatus⟩ := hfull
    exact ⟨line, by rw [if_neg hwithin, hline], by simp [hstatus, hpos.ne'],
      by simp [hstatus, hwithin], by simp [hstatus, hpos, not_lt.mp hwithin]⟩

namespace Occasion

open Amount (headroom headroom_nonneg headroom_eq_max portion_eq_min)

variable {o : Occasion ℚ} {r : Rule ℚ} {rate : ℚ} {cap : Cap ℚ}

theorem leastLeft_singleton (o : Occasion ℚ) (limit : Limit ℚ) :
    o.LeastLeft [limit] (headroom limit.limit (o.ledger.get limit.key)) := by
  rw [headroom_eq_max]
  refine ⟨⟨limit, List.mem_singleton_self limit, rfl⟩, ?_⟩
  rintro left ⟨limit', hmem, rfl⟩
  rw [List.mem_singleton.mp hmem]

/-- What the caps in force leave of a reward is the least that one of them leaves. -/
theorem leastLeft_rewardHeadroom (o : Occasion ℚ) (hmode : cap.mode = .reward) :
    o.LeastLeft cap.rewardLimits (o.rewardHeadroom cap) := by
  refine ⟨?_, ?_⟩
  · unfold rewardHeadroom
    cases hsecond : cap.secondary with
    | none =>
      exact ⟨⟨cap.key, cap.limit⟩, by simp [Cap.rewardLimits, hmode], headroom_eq_max _ _⟩
    | some second =>
      simp only [Amount.smaller_eq_min]
      rcases min_choice (headroom cap.limit (o.ledger.get cap.key))
        (headroom second.limit (o.ledger.get second.key)) with hmin | hmin
      · exact ⟨⟨cap.key, cap.limit⟩, by simp [Cap.rewardLimits, hmode],
          hmin.trans (headroom_eq_max _ _)⟩
      · exact ⟨second, by simp [Cap.rewardLimits, hmode, hsecond],
          hmin.trans (headroom_eq_max _ _)⟩
  · rintro left ⟨limit, hlimit, rfl⟩
    rw [← headroom_eq_max]
    exact rewardHeadroom_le hlimit

theorem rewardHeadroom_nonneg (o : Occasion ℚ) (hmode : cap.mode = .reward) :
    0 ≤ o.rewardHeadroom cap := by
  obtain ⟨limit, -, heq⟩ := (o.leastLeft_rewardHeadroom hmode).1
  rw [heq]
  exact le_max_right _ _

/-- The line of a rule under a cap on rewards. -/
theorem closedForm_rewardCapped (hamount : 0 < o.amount) (hrate : 0 ≤ rate)
    (hmode : cap.mode = .reward) (r : Rule ℚ) :
    ∃ line, (o.rewardCapped r rate cap).line = some line ∧
      o.ClosedForm rate line (.rewards cap.rewardLimits) := by
  have hrest := o.rewardHeadroom_nonneg hmode
  obtain ⟨line, hline, htells⟩ : ∃ line, (o.rewardCapped r rate cap).line = some line ∧
      line.Tells (o.amount * rate) (o.rewardHeadroom cap) :=
    Contribution.exists_line_tells hrest ⟨_, rfl, rfl⟩ ⟨_, rfl, rfl⟩ ⟨_, rfl, rfl⟩
  refine ⟨line, hline, .rewards (o.leastLeft_rewardHeadroom hmode) ?_ htells⟩
  rw [← Contribution.pays_of_line hline, pays_rewardCapped hamount,
    portion_eq_min (mul_nonneg hamount.le hrate) hrest]

/-- The line of a rule under a cap on spending. -/
theorem closedForm_spendingCapped (hamount : 0 < o.amount) (r : Rule ℚ) (rate : ℚ) (cap : Cap ℚ) :
    ∃ line, (o.spendingCapped r rate cap).line = some line ∧
      o.ClosedForm rate line (.spending ⟨cap.key, cap.limit⟩) := by
  have hrest := headroom_nonneg cap.limit (o.ledger.get cap.key)
  obtain ⟨line, hline, htells⟩ : ∃ line, (o.spendingCapped r rate cap).line = some line ∧
      line.Tells o.amount (headroom cap.limit (o.ledger.get cap.key)) :=
    Contribution.exists_line_tells hrest ⟨_, rfl, rfl⟩ ⟨_, rfl, rfl⟩ ⟨_, rfl, rfl⟩
  refine ⟨line, hline, .spending (o.leastLeft_singleton ⟨cap.key, cap.limit⟩) ?_ htells⟩
  rw [← Contribution.pays_of_line hline, pays_spendingCapped hamount,
    portion_eq_min hamount.le hrest]

/-- The line of a rule that grants by a row of the tier program. -/
theorem closedForm_tierRow (hamount : 0 < o.amount) (r : Rule ℚ) (program : TierProgram ℚ)
    {row : TierLevel ℚ} (hrate : 0 ≤ row.rate) :
    ∃ line, (o.tierRow r program row).line = some line ∧
      o.ClosedForm row.rate line (.rewards [⟨.tierReward program.id, row.cap⟩]) := by
  have hrest := headroom_nonneg row.cap (o.ledger.get (.tierReward program.id))
  obtain ⟨line, hline, htells⟩ : ∃ line, (o.tierRow r program row).line = some line ∧
      line.Tells (o.amount * row.rate)
        (headroom row.cap (o.ledger.get (.tierReward program.id))) :=
    Contribution.exists_line_tells hrest ⟨_, rfl, rfl⟩ ⟨_, rfl, rfl⟩ ⟨_, rfl, rfl⟩
  refine ⟨line, hline, .rewards (o.leastLeft_singleton ⟨.tierReward program.id, row.cap⟩) ?_ htells⟩
  rw [← Contribution.pays_of_line hline, pays_tierRow hamount, tierGranted_eq_portion,
    portion_eq_min (mul_nonneg hamount.le hrate) hrest]

/-! ## What is charged -/

/-- A contribution comes to its line: the line says what it does under the limits in force, and a
reward charged to the limits is the one that the line pays. -/
structure ComesTo (o : Occasion ℚ) (rate : ℚ) (restraint : Restraint ℚ) (c : Contribution ℚ)
    (line : QuoteLine ℚ) : Prop where
  line_eq : c.line = some line
  form : o.ClosedForm rate line restraint
  reward : ∀ charge ∈ c.rewardCharge, charge.2.2 = line.rate * o.amount ∧
    ∃ limits, restraint = .rewards limits ∧ limits.map (·.key) = charge.1 :: charge.2.1.toList
  tier : ∀ charge ∈ c.tierCharge, charge.reward = line.rate * o.amount ∧
    ∃ cap, restraint = .rewards [⟨.tierReward charge.programId, cap⟩]

theorem exists_comesTo_rewardCapped (hamount : 0 < o.amount) (hrate : 0 ≤ rate)
    (hmode : cap.mode = .reward) (r : Rule ℚ) :
    ∃ line, o.ComesTo rate (.rewards cap.rewardLimits) (o.rewardCapped r rate cap) line := by
  obtain ⟨line, hline, hform⟩ := closedForm_rewardCapped hamount hrate hmode r
  refine ⟨line, hline, hform, fun charge hcharge => ?_, fun charge hcharge => ?_⟩
  · rw [rewardCharge_eq_portion, ← pays_rewardCapped hamount r,
      Contribution.pays_of_line hline] at hcharge
    split at hcharge
    next =>
      obtain rfl := Option.some.inj hcharge
      refine ⟨rfl, cap.rewardLimits, rfl, ?_⟩
      rw [Cap.rewardLimits, hmode]
      cases cap.secondary <;> rfl
    next => exact absurd hcharge (Option.not_mem_none charge)
  · rw [(o.charges_rewardCapped r rate cap).2.1] at hcharge
    exact absurd hcharge (Option.not_mem_none charge)

theorem exists_comesTo_spendingCapped (hamount : 0 < o.amount) (r : Rule ℚ) (rate : ℚ)
    (cap : Cap ℚ) :
    ∃ line, o.ComesTo rate (.spending ⟨cap.key, cap.limit⟩) (o.spendingCapped r rate cap) line := by
  obtain ⟨line, hline, hform⟩ := closedForm_spendingCapped hamount r rate cap
  obtain ⟨hreward, htier, -⟩ := o.charges_spendingCapped r rate cap
  exact ⟨line, hline, hform, by simp [hreward], by simp [htier]⟩

theorem exists_comesTo_tierRow (hamount : 0 < o.amount) (r : Rule ℚ) (program : TierProgram ℚ)
    {row : TierLevel ℚ} (hrate : 0 ≤ row.rate) :
    ∃ line, o.ComesTo row.rate (.rewards [⟨.tierReward program.id, row.cap⟩])
      (o.tierRow r program row) line := by
  obtain ⟨line, hline, hform⟩ := closedForm_tierRow hamount r program hrate
  refine ⟨line, hline, hform, ?_, ?_⟩
  · simp [(o.charges_tierRow r program row).1]
  · intro charge hcharge
    rw [tierCharge_tierRow] at hcharge
    obtain rfl := Option.some.inj hcharge
    refine ⟨?_, row.cap, rfl⟩
    rw [← Contribution.pays_of_line hline, pays_tierRow hamount]
    rfl

/-- What a rule contributes that grants its rate comes to its line. -/
theorem Earns.exists_comesTo {restraint : Restraint ℚ} (h : o.Earns r rate restraint)
    (hamount : 0 < o.amount) (hrate : 0 ≤ rate) (replaced : Bool) (id : String) :
    ∃ line, o.ComesTo rate restraint (o.contribution replaced (id, some r)) line := by
  have hr : (id, some r).2 = some r := rfl
  cases h with
  | @flat _ _ cap effect passed hits =>
    cases cap with
    | none =>
      rw [contribution_of_passed hr (by simp [Rule.defect?, effect]) passed]
      simp only [applied, effect, hits, if_true]
      exact ⟨r.line .active rate,
        { line_eq := rfl
          form := .free (mul_comm _ _) rfl
          reward := fun charge h => absurd h (Option.not_mem_none charge)
          tier := fun charge h => absurd h (Option.not_mem_none charge) }⟩
    | some cap =>
      rw [contribution_of_flat hr effect passed hits]
      cases hmode : cap.mode with
      | reward =>
        rw [Option.elim_some, Cap.restraint, hmode]
        exact exists_comesTo_rewardCapped hamount hrate hmode r
      | spending =>
        rw [Option.elim_some, Cap.restraint, hmode]
        exact exists_comesTo_spendingCapped hamount r rate cap
  | tiered tiers =>
    rw [tiers.contribution_eq hr]
    exact exists_comesTo_tierRow hamount r _ hrate

end Occasion

/-! ## Which position is recorded -/

namespace Quote

section

variable {α : Type}

/-- The position whose reward a quote charges to a cap: the first that charges one. -/
def rewardPosition? (parts : List (Contribution α)) : Option Nat :=
  parts.findIdx? (·.rewardCharge.isSome)

/-- The position that a quote charges to the tier program: the first that charges it. -/
def tierPosition? (parts : List (Contribution α)) : Option Nat :=
  parts.findIdx? (·.tierCharge.isSome)

/-- The lines of contributions are those before a position, the line of the position, and those
after it. -/
theorem linesOf_eq_of_getElem? {parts : List (Contribution α)} {n : Nat}
    {c : Contribution α} {line : QuoteLine α} (h : parts[n]? = some c) (hline : c.line = some line) :
    linesOf parts =
      linesOf (parts.take n) ++ line :: linesOf (parts.drop (n + 1)) := by
  obtain ⟨hn, rfl⟩ := List.getElem?_eq_some_iff.mp h
  conv_lhs => rw [← List.take_append_drop n parts, List.drop_eq_getElem_cons hn]
  rw [linesOf, List.filterMap_append, List.filterMap_cons_some hline]
  rfl

/-- The first result is that at the first position with one. -/
theorem findSome?_of_findIdx? {β γ : Type} {f : β → Option γ} {l : List β} {n : Nat}
    (h : l.findIdx? (fun x => (f x).isSome) = some n) :
    ∃ x ∈ l[n]?, ∃ y ∈ f x, l.findSome? f = some y := by
  obtain ⟨hn, hsome, hbefore⟩ := List.findIdx?_eq_some_iff_getElem.mp h
  obtain ⟨y, hy⟩ := Option.isSome_iff_exists.mp hsome
  refine ⟨l[n], List.getElem?_eq_getElem hn, y, hy, ?_⟩
  rw [List.findSome?_eq_some_iff]
  refine ⟨l.take n, l[n], l.drop (n + 1), by simp, hy, fun x hx => ?_⟩
  obtain ⟨k, hk, rfl⟩ := List.mem_take_iff_getElem.mp hx
  simpa using hbefore k (by omega)

end

end Quote

namespace RuleBook

variable {b : RuleBook ℚ} {card : Card} {n : Nat} {id : String} {r : Rule ℚ}

/-- What stands at a position of a card is what its rule contributes. -/
theorem getElem?_contributions (hid : card.rules[n]? = some id) (hrule : b.rule? id = some r)
    (o : Occasion ℚ) :
    (b.contributions o card)[n]? =
      some (o.contribution (b.replacer? o card).isSome (id, some r)) := by
  rw [getElem?_contributions_of_id hid, hrule]

/-- The rate of a rule that grants it is not negative, provided that no level of the tier program has
a negative one: the rates of all other rules have been checked. -/
theorem rate_nonneg_of_earns {scheme : Scheme ℚ}
    (hrates : ∀ program ∈ scheme.tierProgram, ∀ row ∈ program.levels, 0 ≤ row.rate)
    (hrule : (ofScheme scheme).rule? id = some r) {o : Occasion ℚ}
    (hbook : o.book = ofScheme scheme) {rate : ℚ} {restraint : Restraint ℚ}
    (h : o.Earns r rate restraint) : 0 ≤ rate := by
  cases h with
  | flat effect =>
    have hmem : r ∈ (Rule.compileAll scheme.rules).values := Dict.mem_values_of_get? hrule
    exact not_lt.mp (Rule.rate_of_mem_compileAll hmem effect).2
  | @tiered program row tiers =>
    have hoffered := tiers.offered
    rw [hbook] at hoffered
    exact hrates program hoffered row (List.mem_of_find?_eq_some tiers.row)

/-- **Closed form of what a rule pays under limits.** On every card and occasion the line of a rule
that grants its rate stands at the place of its position; with the least that a limit in force
leaves it pays and tells what `Occasion.ClosedForm` says; and when its position is the one that is
recorded, then what is charged to the limits, or to the tier program, is the reward that the line
pays. -/
theorem quote_closedForm (scheme : Scheme ℚ)
    (hrates : ∀ program ∈ scheme.tierProgram, ∀ row ∈ program.levels, 0 ≤ row.rate)
    (card : Card) {amount : ℚ} (hamount : 0 < amount) (rawCategory : String) (mode : DisplayMode)
    (ledger : Ledger ℚ) (settings : Settings) {n : Nat} {id : String} {r : Rule ℚ}
    (hid : card.rules[n]? = some id) (hrule : (ofScheme scheme).rule? id = some r) {rate : ℚ}
    {restraint : Restraint ℚ} :
    let b := ofScheme scheme
    let q := b.quote card amount rawCategory mode ledger settings
    let o := b.occasion card amount rawCategory ledger settings
    let parts := b.contributions o card
    o.Earns r rate restraint →
      ∃ line,
        q.lines = Quote.linesOf (parts.take n) ++ line :: Quote.linesOf (parts.drop (n + 1)) ∧
        o.ClosedForm rate line restraint ∧
        (Quote.rewardPosition? parts = some n →
          ∃ limits key second, restraint = .rewards limits ∧
            limits.map (·.key) = key :: second.toList ∧
            q.capCharge = .reward key second (line.rate * amount)) ∧
        (Quote.tierPosition? parts = some n →
          ∃ programId cap qualifies, restraint = .rewards [⟨.tierReward programId, cap⟩] ∧
            q.tierCharge = some ⟨programId, line.rate * amount, qualifies⟩) := by
  intro b q o parts hearns
  have hrate := rate_nonneg_of_earns hrates hrule rfl hearns
  obtain ⟨line, hline⟩ := hearns.exists_comesTo hamount hrate (b.replacer? o card).isSome id
  have hpart := getElem?_contributions hid hrule o
  refine ⟨line, Quote.linesOf_eq_of_getElem? hpart hline.line_eq, hline.form, ?_, ?_⟩
  · intro hposition
    obtain ⟨c, hc, ⟨key, second, reward⟩, hcharge, hfirst⟩ := Quote.findSome?_of_findIdx? hposition
    obtain rfl := Option.some.inj (hpart.symm.trans hc)
    obtain ⟨hreward, limits, hlimits, hkeys⟩ := hline.reward _ hcharge
    refine ⟨limits, key, second, hlimits, hkeys, ?_⟩
    exact Quote.capChargeOf_eq_reward_iff.mpr (hreward ▸ hfirst)
  · intro hposition
    obtain ⟨c, hc, charge, hcharge, hfirst⟩ := Quote.findSome?_of_findIdx? hposition
    obtain rfl := Option.some.inj (hpart.symm.trans hc)
    obtain ⟨hreward, cap, hrestraint⟩ := hline.tier charge hcharge
    exact ⟨charge.programId, cap, charge.qualifies, hrestraint, hreward ▸ hfirst⟩

/-- Two caps of which the first one leaves less than the rule is after, and a level that leaves just
what it is after. -/
theorem quote_closedForm_twoCaps :
    let scheme : Scheme ℚ :=
      { Sample.single
          [((RuleSpec.flat "dining" (1 / 10) ["dining"]).capped .reward "k" 300).cappedAgain
              "shared" 200,
            .ofKind "tier" .tieredCapped] with
        tierProgram := some ⟨"program", 1, [⟨1, 1 / 50, 40⟩], "travel", none, none⟩ }
    let card : Card := .held "card" "cash" ["dining", "tier"]
    let ledger : Ledger ℚ := Ledger.empty.add (.configured "k") 150
    let b := ofScheme scheme
    let q := b.quote card 2000 "dining" .cash ledger Sample.settings
    let o := b.occasion card 2000 "dining" ledger Sample.settings
    (∃ line ∈ q.lines,
      o.ClosedForm (1 / 10) line (.rewards [⟨.configured "k", 300⟩, ⟨.configured "shared", 200⟩]) ∧
      ∃ key second, q.capCharge = .reward key second (line.rate * 2000)) ∧
    (∃ line ∈ q.lines, o.ClosedForm (1 / 50) line (.rewards [⟨.tierReward "program", 40⟩]) ∧
      ∃ charge ∈ q.tierCharge, charge.reward = line.rate * 2000) ∧
    q.lines.map (fun line => (line.status, line.rate * 2000)) = [(.partly, 150), (.active, 40)] := by
  intro scheme card ledger b q o
  have hrates : ∀ program ∈ scheme.tierProgram, ∀ row ∈ program.levels, 0 ≤ row.rate := by
    decide +kernel
  have hdining : b.rule? "dining" = some ⟨"dining", "dining", ["dining"], .none,
      .flat .add (1 / 10) (some ⟨.configured "k", 300, .reward,
        some ⟨.configured "shared", 200⟩⟩)⟩ := by decide +kernel
  have htier : b.rule? "tier" = some ⟨"tier", "tier", [], .none, .tiered⟩ := by decide +kernel
  refine ⟨?_, ?_, by decide +kernel⟩
  · obtain ⟨line, hlines, hform, hreward, -⟩ := quote_closedForm scheme hrates card
      (by decide +kernel : (0 : ℚ) < 2000) "dining" .cash ledger Sample.settings (n := 0) rfl hdining
      (.flat rfl (by decide +kernel) (by decide +kernel))
    obtain ⟨limits, key, second, -, -, hcharge⟩ := hreward (by decide +kernel)
    exact ⟨line, by rw [hlines]; simp, hform, key, second, hcharge⟩
  · obtain ⟨line, hlines, hform, -, hcharge⟩ := quote_closedForm scheme hrates card
      (by decide +kernel : (0 : ℚ) < 2000) "dining" .cash ledger Sample.settings (n := 1) rfl htier
      (.tiered ⟨rfl, by decide +kernel, by decide +kernel, by decide +kernel, rfl, rfl⟩)
    obtain ⟨programId, cap, qualifies, -, hcharge⟩ := hcharge (by decide +kernel)
    exact ⟨line, by rw [hlines]; simp, hform, _, hcharge, rfl⟩

end RuleBook

end CardRewards
