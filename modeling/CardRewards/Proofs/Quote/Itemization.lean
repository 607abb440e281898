import CardRewards.Proofs.Number.Sum
import CardRewards.Proofs.Quote.Position
import CardRewards.Scheme.Sample

/-!
# What the lines of a quote account for

The rate of a quote is the sum of the rates of its lines, in order, and only lines of rules that
apply have a rate (`rate_eq_zero_of_mem_lines`). So it is what the positions whose rules apply add
up to: on doubles too the zeros of the others may be left out of the sum (`rateOf_filter_applying`),
and so may those of positions whose id has no rule (`rateOf_filter_ruled`).

Each position has at most one line. Which positions have one whatever the purchase, and which have
one that says that a mission keeps their rule locked, is part of `itemization`.
-/

namespace CardRewards

namespace RuleBook

section

variable {α : Type} [Amount α] {scheme : Scheme α} {card : Card} {amount : α} {rawCategory : String}
  {mode : DisplayMode} {ledger : Ledger α} {settings : Settings} {line : QuoteLine α}

/-- A line of a quote was contributed by the id that it names. -/
theorem contribution_of_mem_lines
    (h : line ∈ ((ofScheme scheme).quote card amount rawCategory mode ledger settings).lines) :
    ∃ replaced, (((ofScheme scheme).occasion card amount rawCategory ledger settings).contribution
      replaced (line.ruleId, (ofScheme scheme).rule? line.ruleId)).line = some line := by
  obtain ⟨c, hc, hline⟩ := List.mem_filterMap.mp h
  obtain ⟨position, hposition, rfl⟩ := exists_position_of_mem_contributions hc
  obtain ⟨-, hrule⟩ := rule?_of_mem_cardRules hposition
  rw [ruleId_of_line hrule hline, hrule]
  exact ⟨_, hline⟩

/-- A line has a rate only if its rule applies, in whole or in part. -/
theorem rate_eq_zero_of_mem_lines
    (h : line ∈ ((ofScheme scheme).quote card amount rawCategory mode ledger settings).lines)
    (hactive : line.status ≠ .active) (hpartly : line.status ≠ .partly) : line.rate = 0 := by
  obtain ⟨replaced, hline⟩ := contribution_of_mem_lines h
  exact Occasion.rate_eq_zero_of_line hline hactive hpartly

/-- The line of an id without a rule has no rate. -/
theorem rate_eq_zero_of_unruled
    (h : line ∈ ((ofScheme scheme).quote card amount rawCategory mode ledger settings).lines)
    (unruled : ((ofScheme scheme).rule? line.ruleId).isSome = false) : line.rate = 0 := by
  obtain ⟨replaced, hline⟩ := contribution_of_mem_lines h
  rw [Option.isSome_eq_false_iff, Option.isNone_iff_eq_none] at unruled
  rw [unruled] at hline
  exact congrArg (·.rate) (Option.some.inj hline).symm

end

variable {scheme : Scheme Binary64} {card : Card} {amount : Binary64} {rawCategory : String}
  {mode : DisplayMode} {ledger : Ledger Binary64} {settings : Settings}

/-- Lines without a rule add nothing to the sum of the rates, to the last bit. -/
theorem rateOf_filter_ruled :
    let q := (ofScheme scheme).quote card amount rawCategory mode ledger settings
    Quote.rateOf (q.lines.filter fun line => ((ofScheme scheme).rule? line.ruleId).isSome) =
      Quote.rateOf q.lines := by
  intro q
  have hzero : (0 : Binary64) ≠ -0 := by decide
  exact Binary64.foldl_add_filter (fun _ h unruled => rate_eq_zero_of_unruled h unruled) hzero

/-- The sum of the rates is the sum over the lines of rules that apply, to the last bit. -/
theorem rateOf_filter_applying :
    let q := (ofScheme scheme).quote card amount rawCategory mode ledger settings
    Quote.rateOf (q.lines.filter fun line => line.status = .active ∨ line.status = .partly) =
      Quote.rateOf q.lines := by
  intro q
  have hzero : (0 : Binary64) ≠ -0 := by decide
  refine Binary64.foldl_add_filter (fun line h hidle => ?_) hzero
  obtain ⟨hactive, hpartly⟩ := not_or.mp (of_decide_eq_false hidle)
  exact rate_eq_zero_of_mem_lines h hactive hpartly

/-- **What the lines of a quote account for.** The rate of a quote is the sum of the rates of its
lines in order, to which those of ids without a rule add nothing, and its native value is that rate
on the amount. Only lines of rules that apply, in whole or in part, have a rate. Each position of
the card has at most one line, in order, and the rate of the quote is the sum over the positions
whose rules apply. One whose id has no rule, or a rule that could not be made sense of, always has a
line, which says so; and one has a line which says that it is locked exactly if nothing but a
mission that has not come far enough keeps its rule from applying. -/
theorem itemization (scheme : Scheme Binary64) (card : Card) (amount : Binary64)
    (rawCategory : String) (mode : DisplayMode) (ledger : Ledger Binary64) (settings : Settings) :
    let b := ofScheme scheme
    let o := b.occasion card amount rawCategory ledger settings
    let q := b.quote card amount rawCategory mode ledger settings
    q.totalRate = (q.lines.map (·.rate)).foldl (· + ·) 0 ∧
    q.totalRate = ((q.lines.filter fun line => (b.rule? line.ruleId).isSome).map
      (·.rate)).foldl (· + ·) 0 ∧
    q.nativeValue = q.totalRate * amount ∧
    (∀ line ∈ q.lines, line.rate ≠ 0 → line.status = .active ∨ line.status = .partly) ∧
    (q.lines.map (·.ruleId)).Sublist card.rules ∧
    ∃ entries : List (Option (QuoteLine Binary64)), q.Itemizes card entries ∧
      q.totalRate = (entries.filterMap fun entry =>
        (entry.filter fun line => line.status = .active ∨ line.status = .partly).map
          (·.rate)).foldl (· + ·) 0 ∧
      ∀ (n : Nat) (id : String), card.rules[n]? = some id →
        ((∀ r, b.rule? id = some r → r.isSupported = false) →
          ∃ line, entries[n]? = some (some line) ∧ line.status = .unsupported) ∧
        ((∃ line, entries[n]? = some (some line) ∧ line.status = .locked) ↔
          ∃ r, b.rule? id = some r ∧ r.isSupported = true ∧ o.Admits r ∧ o.hits r = true ∧
            ∃ gate ∈ r.gates.mission, ledger.get gate.key < gate.required) := by
  intro b o q
  have hitemizes : q.Itemizes card (b.entries o card) := itemizes_quote ..
  refine ⟨?_, ?_, rfl, ?_, ruleIds_sublist .., b.entries o card, hitemizes, ?_, ?_⟩
  · rw [List.foldl_map]
    rfl
  · rw [List.foldl_map]
    exact rateOf_filter_ruled.symm
  · intro line hline hrate
    by_contra h
    obtain ⟨hactive, hpartly⟩ := not_or.mp h
    exact hrate (rate_eq_zero_of_mem_lines hline hactive hpartly)
  · rw [← List.map_filterMap, ← List.filter_filterMap, List.foldl_map]
    show Quote.rateOf q.lines = Quote.rateOf ((b.entries o card).reduceOption.filter _)
    rw [← hitemizes.lines_eq]
    exact rateOf_filter_applying.symm
  · intro n id hid
    rw [getElem?_entries hid]
    refine ⟨fun hunsupported => ?_, ?_⟩
    · obtain ⟨line, hline, hstatus⟩ := Occasion.exists_unsupported_line id hunsupported
      exact ⟨line, congrArg some hline, hstatus⟩
    · simp only [Option.some.injEq]
      refine Occasion.exists_locked_line_iff.trans ?_
      refine exists_congr fun r => and_congr_right fun _ => and_congr_right fun _ => ?_
      constructor
      · rintro ⟨hawaits, hgate⟩
        exact ⟨hawaits.toAdmits, hawaits.hits, hgate⟩
      · rintro ⟨hadmits, hhits, hgate⟩
        exact ⟨⟨hadmits, hhits⟩, hgate⟩

/-- Of three positions one has no rule and one waits for its mission; the rate is that of the third,
and so is the sum over the lines that have a rule. -/
theorem itemization_unruled :
    let b : RuleBook Binary64 := ofScheme (Sample.single
      [(RuleSpec.flat "travel" (Sample.thousandths 50) ["travel"]).gatedByMission "m"
          (Sample.whole 100),
        .base "base" (Sample.thousandths 4)])
    let q := b.quote (.held "card" "cash" ["ghost", "travel", "base"]) (Sample.whole 1000) "travel"
      .cash .empty .empty
    q.lines.map (·.status) = [.unsupported, .locked, .active] ∧
      q.totalRate = Sample.thousandths 4 ∧
      ((q.lines.filter fun line => (b.rule? line.ruleId).isSome).map (·.rate)).foldl (· + ·) 0 =
        Sample.thousandths 4 := by
  intro b q
  have hrate : q.totalRate = Sample.thousandths 4 := by decide +kernel
  obtain ⟨-, hruled, -⟩ := itemization _ (.held "card" "cash" ["ghost", "travel", "base"])
    (Sample.whole 1000) "travel" .cash .empty .empty
  exact ⟨by decide +kernel, hrate, hruled.symm.trans hrate⟩

end RuleBook

end CardRewards
