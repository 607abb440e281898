import CardRewards.Proofs.FirstMatch
import CardRewards.Proofs.Quote.Gate
import CardRewards.Proofs.Quote.Line
import Mathlib.Data.List.ReduceOption

/-!
# A quote by positions

A card lists its rules by position, and a quote says two sorts of things about them: of every
position by itself what became of its rule, and of the whole list which position comes first with
some property. The first is a listing with one place for each position (`Quote.Itemizes`), and every
quote has one: `itemizes_quote`. The second is `FirstIn`, or `FirstWith` where it is asked what that
position has.

A line that a position contributes is one of few (`Occasion.Shows`): of a rule that a mission keeps
locked, of a rule that applies, or of one that cannot be evaluated. A rate goes with an active or a
partly granted rule and with no other.
-/

namespace CardRewards

/-! ## What a line shows -/

namespace Occasion

variable {α : Type} [Amount α] {o : Occasion α} {replaced : Bool} {r : Rule α}

/-- What a rule shows that its gates let apply: nothing, or a line in one of four states. -/
inductive Shows (r : Rule α) : Option (QuoteLine α) → Prop
  | nothing : Shows r none
  | active (rate : α) (note : Option String) : Shows r (some ⟨r.id, r.label, .active, rate, note⟩)
  | partly (rate : α) (note : Option String) : Shows r (some ⟨r.id, r.label, .partly, rate, note⟩)
  | capped (note : Option String) : Shows r (some ⟨r.id, r.label, .capped, 0, note⟩)
  | unsupported (note : Option String) : Shows r (some ⟨r.id, r.label, .unsupported, 0, note⟩)

/-- A flat rule that matches shows a line, whatever its cap leaves. -/
theorem exists_line_flat (o : Occasion α) (r : Rule α) (rate : α) (cap : Option (Cap α)) :
    ∃ line, (o.flat r rate cap).line = some line ∧ Shows r (some line) := by
  unfold flat
  split
  next => exact ⟨_, rfl, .active rate none⟩
  next cap =>
    split
    next =>
      simp only [rewardCapped]
      split
      next => exact ⟨_, rfl, .capped _⟩
      next =>
        split
        next => exact ⟨_, rfl, .partly _ _⟩
        next => exact ⟨_, rfl, .active _ _⟩
    next =>
      simp only [spendingCapped]
      split
      next => exact ⟨_, rfl, .capped _⟩
      next =>
        split
        next => exact ⟨_, rfl, .partly _ _⟩
        next => exact ⟨_, rfl, .active _ _⟩

theorem shows_tiered (o : Occasion α) (r : Rule α) : Shows r (o.tiered r).line := by
  have htiering := o.tiering r
  generalize o.tiered r = c at htiering ⊢
  cases htiering with
  | nothing => exact .nothing
  | lacking note => exact .unsupported _
  | granting program row =>
    simp only [tierRow]
    split
    next => exact .capped _
    next =>
      split
      next => exact .partly _ _
      next => exact .active _ _

theorem shows_flexible (o : Occasion α) (r : Rule α) (rate : α) :
    Shows r (o.flexible r rate).line := by
  rcases o.flexible_cases r rate with heq | ⟨weight, note, heq⟩
  · rw [heq]
    exact .nothing
  · rw [heq]
    exact .active _ _

theorem shows_applied (o : Occasion α) (replaced : Bool) (r : Rule α) :
    Shows r (o.applied replaced r).line := by
  unfold applied
  split
  next =>
    split
    next rate cap _ _ =>
      obtain ⟨line, hline, hshows⟩ := exists_line_flat o r rate cap
      rw [hline]
      exact hshows
    next => exact .nothing
  next =>
    split
    next => exact .nothing
    next => exact .active _ _
  next => exact shows_tiered o r
  next => exact shows_flexible o r _
  next =>
    unfold fixedBonus
    split
    next => exact .active _ _
    next => exact .nothing
  next => exact .nothing
  next => exact .nothing

/-- A line that a rule shows names the rule; it is not locked, and it has a rate only if it is
active or partly granted. -/
theorem Shows.of_some {line : QuoteLine α} (h : Shows r (some line)) :
    line.ruleId = r.id ∧ line.status ≠ .locked ∧
      (line.status ≠ .active → line.status ≠ .partly → line.rate = 0) := by
  cases h with
  | active rate note => exact ⟨rfl, LineStatus.noConfusion, fun hactive => absurd rfl hactive⟩
  | partly rate note => exact ⟨rfl, LineStatus.noConfusion, fun _ hpartly => absurd rfl hpartly⟩
  | capped note => exact ⟨rfl, LineStatus.noConfusion, fun _ _ => rfl⟩
  | unsupported note => exact ⟨rfl, LineStatus.noConfusion, fun _ _ => rfl⟩

/-- A position without a rule that could be evaluated says so. -/
theorem exists_unsupported_line (id : String) {rule? : Option (Rule α)}
    (h : ∀ r ∈ rule?, r.isSupported = false) :
    ∃ line, (o.contribution replaced (id, rule?)).line = some line ∧ line.status = .unsupported :=
  exists_unsupported_line_iff.mpr fun r hr => .inl (h r hr)

/-- A position shows that it is locked exactly if it has a rule that could be evaluated and that
waits for nothing but a mission, which has not come far enough. -/
theorem exists_locked_line_iff {position : String × Option (Rule α)} :
    (∃ line, (o.contribution replaced position).line = some line ∧ line.status = .locked) ↔
      ∃ r ∈ position.2, r.isSupported = true ∧ o.AwaitsMission r ∧
        ∃ gate ∈ r.gates.mission, o.ledger.get gate.key < gate.required := by
  constructor
  · rintro ⟨line, hline, hstatus⟩
    unfold contribution at hline
    split at hline
    next r hr =>
      refine ⟨r, hr, ?_⟩
      unfold ruleContribution at hline
      split at hline
      next =>
        obtain rfl := Option.some.inj hline
        cases hstatus
      next hdefect =>
        split at hline
        next => cases hline
        next progress required hlocked =>
          obtain ⟨hadmits, hhits, hbelow, gate, hgate, rfl, rfl⟩ :=
            gateState_eq_locked_iff.mp hlocked
          refine ⟨?_, ⟨hadmits, hhits⟩, gate, hgate, hbelow⟩
          rw [Rule.isSupported, hdefect]
          rfl
        next =>
          -- a rule that applies shows nothing that is locked
          have hshows := shows_applied o replaced r
          rw [hline] at hshows
          exact absurd hstatus hshows.of_some.2.1
    next =>
      obtain rfl := Option.some.inj hline
      cases hstatus
  · rintro ⟨r, hr, hsupported, hawaits, gate, hgate, hbelow⟩
    have hrule : position.2 = some r := hr
    refine ⟨r.lockedLine (o.ledger.get gate.key) gate.required, ?_, rfl⟩
    unfold contribution
    rw [hrule]
    show (o.ruleContribution replaced r).line = _
    rw [hawaits.ruleContribution_eq hsupported hgate, if_pos hbelow]
    rfl

/-- Whatever a position shows, it has a rate only if it is active or partly granted. -/
theorem rate_eq_zero_of_line {position : String × Option (Rule α)} {line : QuoteLine α}
    (h : (o.contribution replaced position).line = some line) (hactive : line.status ≠ .active)
    (hpartly : line.status ≠ .partly) : line.rate = 0 := by
  unfold contribution at h
  split at h
  next r hr =>
    unfold ruleContribution at h
    split at h
    next =>
      obtain rfl := Option.some.inj h
      rfl
    next =>
      split at h
      next => cases h
      next =>
        obtain rfl := Option.some.inj h
        rfl
      next =>
        have hshows := shows_applied o replaced r
        rw [h] at hshows
        exact hshows.of_some.2.2 hactive hpartly
  next =>
    obtain rfl := Option.some.inj h
    rfl

end Occasion

/-! ## Quotes by positions -/

/-- The lines of a quote with one place for each position of the card: a position has at most one,
and it names the id that is listed there. -/
structure Quote.Itemizes {α : Type} (q : Quote α) (card : Card)
    (entries : List (Option (QuoteLine α))) : Prop where
  length_eq : entries.length = card.rules.length
  lines_eq : q.lines = entries.reduceOption
  ruleId : ∀ {n : Nat} {line : QuoteLine α}, entries[n]? = some (some line) →
    card.rules[n]? = some line.ruleId

namespace RuleBook

variable {α : Type} [Amount α]

/-- The rule at a position of a card. -/
def ruleAt? (b : RuleBook α) (card : Card) (n : Nat) : Option (Rule α) :=
  card.rules[n]?.bind b.rule?

/-- What the positions of a card show. -/
def entries (b : RuleBook α) (o : Occasion α) (card : Card) : List (Option (QuoteLine α)) :=
  (b.contributions o card).map (·.line)

variable {b : RuleBook α} {o : Occasion α} {card : Card} {n : Nat} {id : String}

theorem length_entries : (b.entries o card).length = card.rules.length := by
  simp [entries, contributions, cardRules]

theorem getElem?_entries (hid : card.rules[n]? = some id) :
    (b.entries o card)[n]? =
      some (o.contribution (b.replacer? o card).isSome (id, b.rule? id)).line := by
  rw [entries, List.getElem?_map, getElem?_contributions_of_id hid]
  rfl

theorem getElem?_entries_of_ruleAt? {r : Rule α} (h : b.ruleAt? card n = some r) :
    (b.entries o card)[n]? =
      some (o.ruleContribution (b.replacer? o card).isSome r).line := by
  obtain ⟨id, hid, hr⟩ := Option.bind_eq_some_iff.mp h
  rw [getElem?_entries hid, hr]
  rfl

/-- What stands at a place was shown by the position. -/
theorem of_getElem?_entries {line : QuoteLine α} (h : (b.entries o card)[n]? = some (some line)) :
    ∃ id, card.rules[n]? = some id ∧
      (o.contribution (b.replacer? o card).isSome (id, b.rule? id)).line = some line := by
  have hlt : n < card.rules.length := by
    rw [← length_entries (b := b) (o := o)]
    exact (List.getElem?_eq_some_iff.mp h).1
  have hid : card.rules[n]? = some card.rules[n] := List.getElem?_eq_getElem hlt
  rw [getElem?_entries hid] at h
  exact ⟨_, hid, Option.some.inj h⟩

/-- **A quote can be read by positions.** -/
theorem itemizes_quote (scheme : Scheme α) (card : Card) (amount : α) (rawCategory : String)
    (mode : DisplayMode) (ledger : Ledger α) (settings : Settings) :
    ((ofScheme scheme).quote card amount rawCategory mode ledger settings).Itemizes card
      ((ofScheme scheme).entries
        ((ofScheme scheme).occasion card amount rawCategory ledger settings) card) where
  length_eq := length_entries
  lines_eq := by
    show Quote.linesOf _ = ((contributions _ _ _).map _).reduceOption
    rw [List.reduceOption, List.filterMap_map]
    rfl
  ruleId := by
    intro n line h
    obtain ⟨id, hid, hline⟩ := of_getElem?_entries h
    rw [hid, ruleId_of_line rfl hline]

/-- The ledger decides which rule takes the place of the base rate only by the counters of the
mission gates. -/
theorem replacer?_congr {ledger : Ledger α} (agree : ∀ r ∈ b.rulesOf card,
      ∀ gate ∈ r.gates.mission, o.ledger.get gate.key = ledger.get gate.key) :
    b.replacer? { o with ledger } card = b.replacer? o card := by
  unfold replacer?
  refine List.find?_congr fun r hr => ?_
  exact Occasion.isReplacedBy_congr (agree r hr)

/-- What comes first among the contributions comes from the first rule with it. -/
theorem findSome?_contributions_rulesOf {γ : Type} {f : Contribution α → Option γ}
    (hf : ∀ id, f (o.contribution (b.replacer? o card).isSome (id, none)) = none) :
    (b.contributions o card).findSome? f =
      (b.rulesOf card).findSome? fun r =>
        f (o.ruleContribution (b.replacer? o card).isSome r) := by
  unfold contributions rulesOf
  rw [List.findSome?_map]
  generalize (b.replacer? o card).isSome = replaced at hf ⊢
  induction b.cardRules card with
  | nil => rfl
  | cons position rest ih =>
    obtain ⟨id, rule?⟩ := position
    cases rule? with
    | none =>
      -- the position contributes nothing of the sort, and its rule is not listed
      show ((id, none) :: rest).findSome? (f ∘ o.contribution replaced) =
        (rest.filterMap (·.2)).findSome? _
      rw [List.findSome?_cons, ← ih, Function.comp_apply, hf id]
    | some r =>
      show ((id, some r) :: rest).findSome? (f ∘ o.contribution replaced) =
        (r :: rest.filterMap (·.2)).findSome? _
      rw [List.findSome?_cons, List.findSome?_cons, ← ih]
      rfl

end RuleBook

end CardRewards
