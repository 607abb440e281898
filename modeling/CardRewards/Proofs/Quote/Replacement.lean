import CardRewards.Proofs.Quote.Position
import CardRewards.Proofs.Rule.BaseRate
import CardRewards.Scheme.Sample

/-!
# Replacing the base rate

The rule that takes the place of the base rate is looked for before the positions of a card are
evaluated, and what is found there has to agree with what the rule does at its own position: it
always shows a line, if only one that says that its cap leaves nothing (`Replaces.exists_line`).

While a base rate is replaced, nothing of it enters the quote. A base rule shows at most that it is
locked, so another rate in its place makes no difference (`quote_eq_of_sameButBaseRates`). While
none is replaced, every base rule whose gates let it apply shows just its rate. Both together are
`replacer_suppresses_base`.
-/

namespace CardRewards

namespace Occasion

variable {α : Type} [Amount α] {o : Occasion α} {r r' : Rule α}

/-! ## The rule that replaces -/

/-- A rule takes the place of the base rate: a flat rule that is written to, whose category matches
and whose gates let it apply. What its cap leaves does not matter. -/
structure Replaces (o : Occasion α) (r : Rule α) : Prop where
  effect : ∃ rate cap, r.effect = .flat .replace rate cap
  hits : o.hits r = true
  passes : o.Passes r

theorem isReplacedBy_iff : o.isReplacedBy r = true ↔ o.Replaces r := by
  have hreplacer : r.isReplacer = true ↔ ∃ rate cap, r.effect = .flat .replace rate cap := by
    unfold Rule.isReplacer
    split
    next rate cap heffect => exact ⟨fun _ => ⟨rate, cap, heffect⟩, fun _ => rfl⟩
    next hother =>
      constructor
      · intro h
        cases h
      · rintro ⟨rate, cap, heffect⟩
        exact absurd heffect (hother rate cap)
  have hpassed : (o.gateState r).isPassed = true ↔ o.Passes r := by
    rw [passes_iff]
    cases o.gateState r <;> simp [GateState.isPassed]
  unfold isReplacedBy
  rw [Bool.and_eq_true, Bool.and_eq_true, hreplacer, hpassed]
  constructor
  · rintro ⟨⟨heffect, hhits⟩, hpasses⟩
    exact ⟨heffect, hhits, hpasses⟩
  · intro h
    exact ⟨⟨h.effect, h.hits⟩, h.passes⟩

/-- A rule that replaces shows a line: active, partly granted, or capped. -/
theorem Replaces.exists_line (h : o.Replaces r) (replaced : Bool) :
    ∃ line, (o.ruleContribution replaced r).line = some line ∧ line.ruleId = r.id ∧
      (line.status = .active ∨ line.status = .partly ∨ line.status = .capped) := by
  obtain ⟨rate, cap, heffect⟩ := h.effect
  have hdefect : r.defect? = none := by rw [Rule.defect?, heffect]
  have hpassed : o.gateState r = .passed := passes_iff.mp h.passes
  have hflat : o.ruleContribution replaced r = o.flat r rate cap := by
    unfold ruleContribution applied
    simp only [hdefect, hpassed, heffect, if_pos h.hits]
  obtain ⟨line, hline, hshows⟩ := exists_line_flat o r rate cap
  have hsupported : line.status ≠ .unsupported := (evaluates_flat o r rate cap line hline).2
  refine ⟨line, by rw [hflat, hline], hshows.of_some.1, ?_⟩
  cases hshows with
  | active => exact .inl rfl
  | partly => exact .inr (.inl rfl)
  | capped => exact .inr (.inr rfl)
  | unsupported => exact absurd rfl hsupported

/-! ## The rules that are replaced -/

variable {rate : α}

/-- What a base rule contributes: nothing of its rate unless it applies and is not replaced. -/
theorem ruleContribution_of_base (effect : r.effect = .base rate) (replaced : Bool) :
    o.ruleContribution replaced r =
      match o.gateState r with
      | .failed => .nothing
      | .locked progress required => .ofLine (r.lockedLine progress required)
      | .passed => if replaced then .nothing else .ofLine (r.line .active rate) := by
  have hdefect : r.defect? = none := by rw [Rule.defect?, effect]
  unfold ruleContribution
  rw [hdefect]
  simp only
  cases o.gateState r with
  | failed => rfl
  | locked progress required => rfl
  | passed =>
    unfold applied
    rw [effect]

/-- A base rule that is replaced shows at most that it is locked. -/
theorem of_line_of_base {line : QuoteLine α} (effect : r.effect = .base rate)
    (h : (o.ruleContribution true r).line = some line) : line.status = .locked ∧ line.rate = 0 := by
  rw [ruleContribution_of_base effect] at h
  cases hgate : o.gateState r with
  | failed =>
    rw [hgate] at h
    cases h
  | locked progress required =>
    rw [hgate] at h
    obtain rfl := Option.some.inj h
    exact ⟨rfl, rfl⟩
  | passed =>
    rw [hgate] at h
    cases h

/-- A base rule that is not replaced shows its rate. -/
theorem line_of_base (effect : r.effect = .base rate) (passes : o.Passes r) :
    (o.ruleContribution false r).line = some (r.line .active rate) := by
  rw [ruleContribution_of_base effect, passes_iff.mp passes]
  rfl

/-- Rules that differ in a base rate contribute the same while it is replaced. -/
theorem ruleContribution_eq_of_sameButBaseRate (h : r.SameButBaseRate r') :
    o.ruleContribution true r' = o.ruleContribution true r := by
  cases h with
  | same => rfl
  | @rerated rate rate' effect =>
    rw [ruleContribution_of_base effect, ruleContribution_of_base rfl]
    rfl

/-- A rule that replaces is no base rule. -/
theorem Replaces.eq_of_sameButBaseRate (h : o.Replaces r) (hr : r.SameButBaseRate r') : r' = r := by
  cases hr with
  | same => rfl
  | rerated effect =>
    obtain ⟨rate, cap, heffect⟩ := h.effect
    rw [effect] at heffect
    cases heffect

/-- A base rule replaces nothing, so rules that differ in a base rate replace alike. -/
theorem isReplacedBy_eq_of_sameButBaseRate (h : r.SameButBaseRate r') :
    o.isReplacedBy r' = o.isReplacedBy r := by
  cases h with
  | same => rfl
  | rerated effect =>
    have hnot : r.isReplacer = false := by rw [Rule.isReplacer, effect]
    unfold isReplacedBy
    rw [hnot]
    rfl

end Occasion

namespace RuleBook

variable {α : Type} [Amount α] {scheme scheme' : Scheme α} {card : Card} {amount : α}
  {rawCategory : String} {mode : DisplayMode} {ledger : Ledger α} {settings : Settings}

theorem replacer?_eq_some_iff {b : RuleBook α} {o : Occasion α} {r : Rule α} :
    b.replacer? o card = some r ↔ FirstIn (b.rulesOf card) o.Replaces r :=
  find?_eq_some_iff_firstIn fun _ => Occasion.isReplacedBy_iff

/-- The rules of a card differ in base rates if the schemes do. -/
theorem forall₂_rulesOf (h : scheme.SameButBaseRates scheme') (card : Card) :
    List.Forall₂ Rule.SameButBaseRate ((ofScheme scheme).rulesOf card)
      ((ofScheme scheme').rulesOf card) := by
  unfold rulesOf cardRules
  induction card.rules with
  | nil => exact .nil
  | cons id rest ih =>
    rw [List.map_cons, List.map_cons]
    have hrel := rel_rule?_ofScheme h id
    generalize (ofScheme scheme).rule? id = found, (ofScheme scheme').rule? id = found' at hrel ⊢
    cases hrel with
    | none => exact ih
    | some hr => exact .cons hr ih

/-- **While a base rate is replaced it does not matter what it is.** -/
theorem quote_eq_of_sameButBaseRates (h : scheme.SameButBaseRates scheme')
    (replaced : ((ofScheme scheme).quote card amount rawCategory mode ledger
      settings).replacer.isSome = true) :
    (ofScheme scheme').quote card amount rawCategory mode ledger settings =
      (ofScheme scheme).quote card amount rawCategory mode ledger settings := by
  have hforall := forall₂_rulesOf h card
  have hrel := rel_rule?_ofScheme h
  obtain ⟨-, hrest⟩ := h
  generalize scheme'.rules = specs at hrest
  subst hrest
  let b := ofScheme scheme
  let b' := ofScheme { scheme with rules := specs }
  let o := b.occasion card amount rawCategory ledger settings
  let o' := b'.occasion card amount rawCategory ledger settings
  have hsome : (b.replacer? o card).isSome = true := by
    rw [← Option.isSome_map]
    exact replaced
  have hreplacer : b'.replacer? o' card = b.replacer? o card := by
    have hfound := rel_find? (R := Rule.SameButBaseRate) (p := o.isReplacedBy) (q := o.isReplacedBy)
      (fun _ _ hr => (Occasion.isReplacedBy_eq_of_sameButBaseRate hr).symm) hforall
    show (b'.rulesOf card).find? o.isReplacedBy = (b.rulesOf card).find? o.isReplacedBy
    generalize (b'.rulesOf card).find? o.isReplacedBy = found' at hfound ⊢
    cases hfirst : (b.rulesOf card).find? o.isReplacedBy with
    | none =>
      rw [hfirst] at hfound
      cases hfound
      rfl
    | some r =>
      rw [hfirst] at hfound
      have hreplaces := Occasion.isReplacedBy_iff.mp (List.find?_some hfirst)
      cases hfound with
      | some hr => rw [hreplaces.eq_of_sameButBaseRate hr]
  have hparts : b'.contributions o' card = b.contributions o card := by
    unfold contributions cardRules
    rw [hreplacer, hsome, List.map_map, List.map_map]
    refine List.map_congr_left fun id _ => ?_
    have hid := hrel id
    show o.contribution true (id, b'.rule? id) = o.contribution true (id, b.rule? id)
    generalize b'.rule? id = found', (ofScheme scheme).rule? id = found at hid ⊢
    cases hid with
    | none => rfl
    | some hr => exact Occasion.ruleContribution_eq_of_sameButBaseRate hr
  unfold quote
  simp only
  rw [hreplacer, hparts]
  rfl

/-- **A replaced base rate is out of the quote, and one that is not is in it.** A quote names the
rule that takes the place of the base rate exactly if the card lists one that does, and names the
first. That rule has a line; every base rule shows at most that it is locked, and with other base
rates the quote is the same. Where no rule takes its place, each base rule that its gates let apply
shows just its rate. -/
theorem replacer_suppresses_base (scheme : Scheme α) (card : Card) (amount : α)
    (rawCategory : String) (mode : DisplayMode) (ledger : Ledger α) (settings : Settings) :
    let b := ofScheme scheme
    let o := b.occasion card amount rawCategory ledger settings
    let q := b.quote card amount rawCategory mode ledger settings
    (∀ id, q.replacer = some id ↔ ∃ r, FirstIn (b.rulesOf card) o.Replaces r ∧ r.id = id) ∧
    ∃ entries, q.Itemizes card entries ∧
      (∀ id, q.replacer = some id →
        (∃ line ∈ q.lines, line.ruleId = id ∧
          (line.status = .active ∨ line.status = .partly ∨ line.status = .capped)) ∧
        (∀ n r rate line, b.ruleAt? card n = some r → r.effect = .base rate →
          entries[n]? = some (some line) → line.status = .locked ∧ line.rate = 0) ∧
        ∀ scheme', scheme.SameButBaseRates scheme' →
          (ofScheme scheme').quote card amount rawCategory mode ledger settings = q) ∧
      (q.replacer = none → ∀ n r rate, b.ruleAt? card n = some r → r.effect = .base rate →
        o.Passes r → entries[n]? = some (some (r.line .active rate))) := by
  intro b o q
  have hreplacer : q.replacer = (b.replacer? o card).map (·.id) := rfl
  refine ⟨fun id => ?_, b.entries o card, itemizes_quote .., fun id hid => ⟨?_, ?_, ?_⟩, ?_⟩
  · rw [hreplacer, Option.map_eq_some_iff]
    refine exists_congr fun r => ?_
    rw [replacer?_eq_some_iff]
  · obtain ⟨r, hr, rfl⟩ := Option.map_eq_some_iff.mp (hreplacer.symm.trans hid)
    have hfirst := replacer?_eq_some_iff.mp hr
    obtain ⟨line, hline, hshown⟩ := hfirst.holds.exists_line (b.replacer? o card).isSome
    have hmem := line_mem_quote hfirst.mem amount rawCategory mode ledger settings line hline
    exact ⟨line, hmem, hshown⟩
  · intro n r rate line hr heffect hline
    obtain ⟨replacer, hsome, -⟩ := Option.map_eq_some_iff.mp (hreplacer.symm.trans hid)
    rw [getElem?_entries_of_ruleAt? hr, hsome] at hline
    exact Occasion.of_line_of_base heffect (Option.some.inj hline)
  · intro scheme' hsame
    refine quote_eq_of_sameButBaseRates hsame ?_
    show q.replacer.isSome = true
    rw [hid]
    rfl
  · intro hnone n r rate hr heffect hpasses
    have hfound : b.replacer? o card = none :=
      Option.map_eq_none_iff.mp (hreplacer.symm.trans hnone)
    rw [getElem?_entries_of_ruleAt? hr, hfound]
    exact congrArg some (Occasion.line_of_base heffect hpasses)

/-- A dining rule whose cap has been used up still takes the place of the base rate, whatever that
is; online nothing does. -/
theorem replacer_suppresses_base_usedUp :
    let scheme (rate : Binary64) : Scheme Binary64 :=
      Sample.single
        [.base "base" rate,
          ((RuleSpec.flat "dining" (Sample.thousandths 50) ["dining"]).capped .reward "k"
            (Sample.whole 100)).replacing]
    let low : Binary64 := Sample.thousandths 4
    let high : Binary64 := Sample.thousandths 900
    let card : Card := .held "card" "cash" ["base", "dining"]
    let ledger : Ledger Binary64 := Ledger.empty.add (.configured "k") (Sample.whole 100)
    let quote (rate : Binary64) (category : String) :=
      (ofScheme (scheme rate)).quote card (Sample.whole 2500) category .cash ledger .empty
    (quote low "dining").replacer = some "dining" ∧
      (quote low "dining").lines.map (·.status) = [.capped] ∧
      quote high "dining" = quote low "dining" ∧
      (quote low "online").replacer = none ∧
      ∃ line ∈ (quote low "online").lines, line.status = .active ∧ line.rate = low := by
  intro scheme low high card ledger quote
  have hdining : (quote low "dining").replacer = some "dining" := by decide +kernel
  have honline : (quote low "online").replacer = none := by decide +kernel
  have hrest (rate rate' : Binary64) :
      scheme rate' = { scheme rate with rules := (scheme rate').rules } := rfl
  have hsame : (scheme low).SameButBaseRates (scheme high) :=
    ⟨.cons (.rerated (by decide +kernel) rfl (by decide +kernel) (by decide +kernel))
      (.cons .same .nil), hrest low high⟩
  refine ⟨hdining, by decide +kernel, ?_, honline, ?_⟩
  · obtain ⟨-, entries, -, hreplaced, -⟩ := replacer_suppresses_base (scheme low) card
      (Sample.whole 2500) "dining" .cash ledger .empty
    exact (hreplaced "dining" hdining).2.2 (scheme high) hsame
  · obtain ⟨-, entries, hentries, -, hbase⟩ := replacer_suppresses_base (scheme low) card
      (Sample.whole 2500) "online" .cash ledger .empty
    let base : Rule Binary64 := ⟨"base", "base", [], .none, .base low⟩
    have hrule : (ofScheme (scheme low)).ruleAt? card 0 = some base := by decide +kernel
    have hpasses : ((ofScheme (scheme low)).occasion card (Sample.whole 2500) "online" ledger
        .empty).Passes base := Occasion.passes_iff.mpr (by decide +kernel)
    have hline : entries[0]? = some (some (base.line .active low)) :=
      hbase honline 0 base low hrule rfl hpasses
    refine ⟨base.line .active low, ?_, rfl, rfl⟩
    have hlines : (quote low "online").lines = entries.reduceOption := hentries.lines_eq
    rw [hlines]
    exact List.reduceOption_mem_iff.mpr (List.mem_of_getElem? hline)

end RuleBook

end CardRewards
