import CardRewards.Audit
import CardRewards.Proofs.Quote.Line
import CardRewards.Proofs.Rule.Lookup

/-!
# What a clean audit vouches for

A scheme in which an audit finds nothing can be evaluated: every id on a card leads to a rule, every
rule passes its checks, every mission that is observed is defined, every card's currency has a
conversion, and the tier program has a row for each of its levels (`Clean`, `clean_of_findings`).
So a quote shows no rule that cannot be evaluated, has a worth in every mode for which its
conversion has one, and counts only towards missions that are defined.

There is one exception. An audit looks for rows that are missing from the tier program, and does not
ask whether there is a program at all for the tiered rules of a scheme. Where there is none, a
tiered rule is shown as one that cannot be evaluated as soon as the customer has reached a tier, and
that is the only way in which such a line comes about: `quote_of_findings_eq_nil`.
-/

namespace CardRewards

namespace RuleBook

variable {α : Type}

/-- What an audit that finds nothing vouches for. -/
structure Clean (b : RuleBook α) : Prop where
  listed : ∀ card ∈ b.scheme.cards, ∀ id ∈ card.rules, ∃ r, b.rule? id = some r
  supported : ∀ id r, b.rule? id = some r → r.isSupported = true
  observed : ∀ id r, b.rule? id = some r → ∀ mission ∈ r.observed?,
    ∃ m ∈ b.scheme.missions, m.id = mission
  converted : ∀ card ∈ b.scheme.cards, b.scheme.conversions.get? card.currency ≠ none
  rows : ∀ program ∈ b.scheme.tierProgram, ∀ level, level ≠ 0 → level ≤ program.maxLevel →
    program.row? level ≠ none

/-! ## The findings one by one -/

/-- Where nothing is found about the cards, their rules and their currencies are there. -/
theorem of_cardFindings_eq_nil {b : RuleBook α} {card : Card} (h : b.cardFindings = [])
    (hcard : card ∈ b.scheme.cards) :
    (∀ id ∈ card.rules, ∃ r, b.rule? id = some r) ∧
      b.scheme.conversions.get? card.currency ≠ none := by
  have hnil := List.flatMap_eq_nil_iff.mp h card hcard
  rw [List.append_eq_nil_iff, List.map_eq_nil_iff, List.filter_eq_nil_iff] at hnil
  obtain ⟨hrules, hcurrency⟩ := hnil
  constructor
  · intro id hid
    have hcontains : b.rules.contains id = true := by simpa using hrules id hid
    exact Option.isSome_iff_exists.mp hcontains
  · intro hnone
    simp [Dict.contains, hnone] at hcurrency

/-- Where nothing is found about the tier program, it has a row for each of its levels. -/
theorem of_tierFindings_eq_nil {b : RuleBook α} {program : TierProgram α} {level : UInt8}
    (h : b.tierFindings = []) (hprogram : b.scheme.tierProgram = some program) (hlevel : level ≠ 0)
    (hle : level ≤ program.maxLevel) : program.row? level ≠ none := by
  unfold tierFindings at h
  rw [hprogram] at h
  -- the levels are counted from one, so this one is the successor of a number below the highest
  have hpos : level.toNat ≠ 0 := fun h0 => hlevel (UInt8.toNat_inj.mp h0)
  have hbound : level.toNat ≤ program.maxLevel.toNat := UInt8.le_iff_toNat_le.mp hle
  have hmem : level ∈ (List.range program.maxLevel.toNat).map fun n => UInt8.ofNat (n + 1) := by
    refine List.mem_map.mpr ⟨level.toNat - 1, List.mem_range.mpr (by omega), ?_⟩
    rw [Nat.sub_add_cancel (by omega), UInt8.ofNat_toNat]
  have hfound := List.filterMap_eq_nil_iff.mp h level hmem
  intro hnone
  simp [hnone] at hfound

variable [Amount α] {scheme : Scheme α}

/-- Where nothing is found, nothing is found by any of the checks. -/
theorem findings_eq_nil_iff {b : RuleBook α} :
    b.findings = [] ↔ b.rulesFindings = [] ∧ b.categoryFindings = [] ∧ b.cardFindings = [] ∧
      b.campaignFindings = [] ∧ b.tierFindings = [] := by
  simp only [findings, List.append_eq_nil_iff, and_assoc]

/-- Nothing is found about the rules only if no counter is shared and each rule is in order. -/
theorem rulesFindings_eq_nil_iff {b : RuleBook α} :
    b.rulesFindings = [] ↔
      b.conflicts = [] ∧ ∀ spec ∈ b.scheme.rules, b.ruleFindings [] spec = [] := by
  rw [rulesFindings, List.append_eq_nil_iff, List.map_eq_nil_iff]
  constructor
  · rintro ⟨hconflicts, hrules⟩
    rw [hconflicts] at hrules
    exact ⟨hconflicts, List.flatMap_eq_nil_iff.mp hrules⟩
  · rintro ⟨hconflicts, hrules⟩
    rw [hconflicts]
    exact ⟨rfl, List.flatMap_eq_nil_iff.mpr hrules⟩

/-- A rule about which nothing is found can be evaluated, and the mission that it observes is
defined. -/
theorem of_ruleFindings_eq_nil {b : RuleBook α} {spec : RuleSpec α} {r : Rule α}
    (hrule : b.rule? spec.id = some r) (h : b.ruleFindings [] spec = []) :
    r.isSupported = true ∧ ∀ mission ∈ r.observed?, ∃ m ∈ b.scheme.missions, m.id = mission := by
  unfold ruleFindings at h
  rw [hrule] at h
  cases hdefect : r.defect? with
  | some defect => simp [hdefect] at h
  | none =>
    refine ⟨by simp [Rule.isSupported, hdefect], fun mission hobserved => ?_⟩
    simp only [hdefect, List.append_eq_nil_iff, List.filterMap_eq_nil_iff] at h
    have hmission : mission ∈ missionRefs spec r :=
      List.mem_append_left _ (Option.mem_toList.mpr hobserved)
    have hfound := h.2 mission hmission
    split at hfound
    next m hm => exact ⟨m, List.mem_of_find?_eq_some hm, by simpa using List.find?_some hm⟩
    next => cases hfound

/-- What an audit vouches for holds where it finds nothing. -/
theorem clean_of_findings (h : (ofScheme scheme).findings = []) : (ofScheme scheme).Clean := by
  obtain ⟨hrules, -, hcards, -, htier⟩ := findings_eq_nil_iff.mp h
  obtain ⟨-, hrule⟩ := rulesFindings_eq_nil_iff.mp hrules
  -- a checked rule is found under the id of a specification, about which nothing is found
  have hchecked : ∀ id r, (ofScheme scheme).rule? id = some r →
      r.isSupported = true ∧ ∀ mission ∈ r.observed?, ∃ m ∈ scheme.missions, m.id = mission := by
    intro id r hr
    obtain ⟨spec, hspec, -⟩ := restates_of_rule? hr
    obtain ⟨hmem, rfl⟩ := Scheme.of_lastRule? hspec
    exact of_ruleFindings_eq_nil hr (hrule spec hmem)
  exact
    { listed := fun card hcard => (of_cardFindings_eq_nil hcards hcard).1
      supported := fun id r hr => (hchecked id r hr).1
      observed := fun id r hr => (hchecked id r hr).2
      converted := fun card hcard => (of_cardFindings_eq_nil hcards hcard).2
      rows := fun program hprogram level hlevel hle =>
        of_tierFindings_eq_nil htier hprogram hlevel hle }

/-! ## Quotes of a clean scheme -/

section

variable {b : RuleBook α} {card : Card} {amount : α} {rawCategory : String} {mode : DisplayMode}
  {ledger : Ledger α} {settings : Settings}

/-- In a clean scheme a rule of a card cannot be evaluated only if it is a tiered one, applies above
level zero, and there is no tier program. -/
theorem Clean.unevaluable_iff (clean : b.Clean) {id : String} {r : Rule α}
    (hr : b.rule? id = some r)
    (reached : ∀ program ∈ b.scheme.tierProgram, settings.tierLevel ≤ program.maxLevel) :
    let o := b.occasion card amount rawCategory ledger settings
    o.Unevaluable r ↔ b.scheme.tierProgram = none ∧ settings.tierLevel ≠ 0 ∧ r.effect = .tiered ∧
      o.gateState r = .passed ∧ o.hitsOrOpen r = true := by
  intro o
  constructor
  · rintro (hdefect | hrow)
    · exact absurd (clean.supported id r hr) (by simp [hdefect])
    · refine ⟨?_, hrow.level, hrow.effect, hrow.passed, hrow.hits⟩
      cases hprogram : b.scheme.tierProgram with
      | none => rfl
      | some program =>
        -- a program would have a row for the level reached
        have hsome := clean.rows program hprogram settings.tierLevel hrow.level
          (reached program hprogram)
        exact absurd (hrow.row program hprogram) hsome
  · rintro ⟨hnone, hlevel, heffect, hpassed, hhits⟩
    exact .inr ⟨heffect, hpassed, hlevel, hhits, fun program hprogram =>
      absurd hprogram (by simp [show o.book.scheme.tierProgram = none from hnone])⟩

theorem Clean.exists_unsupported_mem_lines_iff (clean : b.Clean) (hcard : card ∈ b.scheme.cards)
    (reached : ∀ program ∈ b.scheme.tierProgram, settings.tierLevel ≤ program.maxLevel) :
    let o := b.occasion card amount rawCategory ledger settings
    (∃ line ∈ (b.quote card amount rawCategory mode ledger settings).lines,
        line.status = .unsupported) ↔
      b.scheme.tierProgram = none ∧ settings.tierLevel ≠ 0 ∧
        ∃ r ∈ b.rulesOf card, r.effect = .tiered ∧ o.gateState r = .passed ∧
          o.hitsOrOpen r = true := by
  intro o
  rw [RuleBook.exists_unsupported_mem_lines_iff]
  constructor
  · rintro ⟨id, hid, hall⟩
    obtain ⟨r, hr⟩ := clean.listed card hcard id hid
    obtain ⟨hnone, hlevel, hrule⟩ := (clean.unevaluable_iff hr reached).mp (hall r hr)
    exact ⟨hnone, hlevel, r, mem_rulesOf_iff_rule?.mpr ⟨id, hid, hr⟩, hrule⟩
  · rintro ⟨hnone, hlevel, r, hr, hrule⟩
    obtain ⟨id, hid, hlookup⟩ := mem_rulesOf_iff_rule?.mp hr
    refine ⟨id, hid, fun other hother => ?_⟩
    rw [Option.mem_def, hlookup] at hother
    obtain rfl := Option.some.inj hother
    exact (clean.unevaluable_iff hlookup reached).mpr ⟨hnone, hlevel, hrule⟩

/-- A quote of a clean scheme has a conversion. -/
theorem Clean.noWorthIn_ne (clean : b.Clean) (hcard : card ∈ b.scheme.cards) (shown : DisplayMode)
    (currency : String) :
    (b.quote card amount rawCategory mode ledger settings).noWorthIn shown ≠
      some (.missingConversion currency) := by
  obtain ⟨conversion, hconversion⟩ :=
    Option.ne_none_iff_exists'.mp (clean.converted card hcard)
  have hquote : (b.quote card amount rawCategory mode ledger settings).conversion =
      some conversion := hconversion
  unfold Quote.noWorthIn
  rw [hquote]
  simp only
  split <;> simp

/-- A quote of a clean scheme counts towards missions that are defined. -/
theorem Clean.exists_mission (clean : b.Clean) {tag : MissionTag}
    (h : tag ∈ (b.quote card amount rawCategory mode ledger settings).missionTags) :
    ∃ m ∈ b.scheme.missions, m.id = tag.missionId := by
  obtain ⟨r, hr, hobserved⟩ := of_mem_missionTags h
  obtain ⟨id, -, hrule⟩ := mem_rulesOf_iff_rule?.mp hr
  exact clean.observed id r hrule tag.missionId hobserved

end

/-- **A scheme in which an audit finds nothing can be evaluated**, but for tiered rules without a
tier program. A quote of it shows a rule that cannot be evaluated exactly if the scheme has no tier
program, the customer has reached a tier and some tiered rule of the card applies. It has a
conversion in every mode, and counts only towards missions that are defined. -/
theorem quote_of_findings_eq_nil {scheme : Scheme α} (clean : (ofScheme scheme).findings = [])
    {card : Card} (listed : card ∈ scheme.cards) {settings : Settings}
    (reached : ∀ program ∈ scheme.tierProgram, settings.tierLevel ≤ program.maxLevel)
    (amount : α) (rawCategory : String) (mode : DisplayMode) (ledger : Ledger α) :
    let b := ofScheme scheme
    let o := b.occasion card amount rawCategory ledger settings
    let q := b.quote card amount rawCategory mode ledger settings
    ((∃ line ∈ q.lines, line.status = .unsupported) ↔
      scheme.tierProgram = none ∧ settings.tierLevel ≠ 0 ∧
        ∃ r ∈ b.rulesOf card, r.effect = .tiered ∧ o.gateState r = .passed ∧
          o.hitsOrOpen r = true) ∧
    (∀ shown currency, (q.project shown).noWorth ≠ some (.missingConversion currency)) ∧
    ∀ tag ∈ q.missionTags, ∃ m ∈ scheme.missions, m.id = tag.missionId := by
  intro b o q
  have hclean : b.Clean := clean_of_findings clean
  refine ⟨hclean.exists_unsupported_mem_lines_iff listed reached, fun shown currency => ?_,
    fun tag htag => hclean.exists_mission htag⟩
  exact hclean.noWorthIn_ne listed shown currency

/-- The sample is clean, and on its first tier travel is shown in full on the card that grants
miles: no line is one that cannot be evaluated, and the purchase counts towards a mission. -/
theorem quote_of_findings_eq_nil_voyage :
    let b : RuleBook Binary64 := .ofScheme Sample.scheme
    let card : Card := .held "voyage" "miles"
      ["base", "voyage_tier", "voyage_flex", "voyage_mission", "voyage_bonus"]
    let q := b.quote card (Sample.whole 1000) "travel" .miles .empty Sample.settings
    b.findings = [] ∧ card ∈ b.scheme.cards ∧
      (∀ program ∈ b.scheme.tierProgram, Sample.settings.tierLevel ≤ program.maxLevel) ∧
      (∀ line ∈ q.lines, line.status ≠ .unsupported) ∧
      q.missionTags = [⟨"spend_8000", true⟩] ∧
      ∃ m ∈ b.scheme.missions, m.id = "spend_8000" := by
  intro b card q
  have clean : b.findings = [] := by decide +kernel
  have listed : card ∈ b.scheme.cards := by decide +kernel
  have reached : ∀ program ∈ b.scheme.tierProgram,
      Sample.settings.tierLevel ≤ program.maxLevel := by decide +kernel
  have htags : q.missionTags = [⟨"spend_8000", true⟩] := by decide +kernel
  obtain ⟨hlines, -, hmissions⟩ :=
    quote_of_findings_eq_nil clean listed reached (Sample.whole 1000) "travel" .miles .empty
  refine ⟨clean, listed, reached, fun line hline hstatus => ?_, htags, ?_⟩
  · obtain ⟨hnone, -⟩ := hlines.mp ⟨line, hline, hstatus⟩
    exact nomatch hnone
  · exact hmissions ⟨"spend_8000", true⟩ (htags ▸ List.mem_singleton_self _)

/-- A tiered rule, and no tier program. -/
def untiered : Scheme Binary64 := Sample.single [RuleSpec.ofKind "tier" .tieredCapped]

/-- An audit finds nothing about a tiered rule without a tier program, and a customer who has
reached a tier is shown a rule that cannot be evaluated. -/
theorem findings_of_untiered :
    let b : RuleBook Binary64 := .ofScheme untiered
    let card : Card := .held "card" "cash" ["tier"]
    let settings : Settings := { Settings.empty with tierLevel := 1 }
    b.findings = [] ∧ card ∈ b.scheme.cards ∧ b.scheme.tierProgram = none ∧
      (b.quote card (Sample.whole 1000) "dining" .cash .empty settings).lines =
        [⟨"tier", "tier", .unsupported, 0, some "未配置等级计划"⟩] :=
  ⟨by decide +kernel, by decide +kernel, rfl, by decide +kernel⟩

end RuleBook

end CardRewards
