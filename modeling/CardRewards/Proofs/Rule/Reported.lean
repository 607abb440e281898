import CardRewards.Audit
import CardRewards.Proofs.Rule.Downgrade

/-!
# Rules that an audit reports

A rule book and an audit of it look for conflicts between cap modes each on its own: the rule book
among the rules that stand under their ids, the audit among all that are written. A rule that cannot
be evaluated is reported by itself or with the counters that it shares, so the two have to agree on
what these are.

Where no id is given twice they do: `RuleBook.reports_agree`. What an audit reports of the rules can
be read off its findings, one kind at a time (`filterMap_findings`): the shared counters are the
conflicts (`Rule.ListsConflicts`), and the ids that are reported are those of some of the rules in
the order in which they are written, so none comes twice.
-/

namespace CardRewards

namespace Finding

/-- The rule that is reported as one that cannot be evaluated. -/
def unsupported? : Finding → Option String
  | unsupportedRule id _ => some id
  | _ => none

/-- The counter that is reported as shared, and the rules that share it. -/
def shared? : Finding → Option (String × List String)
  | sharedCapKey key ruleIds => some (key, ruleIds)
  | _ => none

/-- The rule that is reported for a second counter that is not looked at. -/
def ignored? : Finding → Option String
  | ignoredSecondaryCap id => some id
  | _ => none

/-- Whether a finding is about what becomes of a rule. -/
def isWarning : Finding → Bool
  | unsupportedRule .. | sharedCapKey .. | ignoredSecondaryCap _ => true
  | _ => false

/-- A reading finds something only in what is about the rules. -/
def ReadsWarnings {γ : Type} (read : Finding → Option γ) : Prop :=
  ∀ finding, isWarning finding = false → read finding = none

theorem readsWarnings_unsupported? : ReadsWarnings unsupported? := by
  rintro (_ | _) h <;> first | rfl | cases h

theorem readsWarnings_shared? : ReadsWarnings shared? := by
  rintro (_ | _) h <;> first | rfl | cases h

theorem readsWarnings_ignored? : ReadsWarnings ignored? := by
  rintro (_ | _) h <;> first | rfl | cases h

end Finding

namespace RuleBook

variable {α : Type}

/-- A rule that cannot be evaluated has no cap. -/
theorem ignoresSecondaryCap_eq_false {r : Rule α} {defect : Defect α}
    (h : r.defect? = some defect) : ignoresSecondaryCap r = false := by
  unfold Rule.defect? at h
  unfold ignoresSecondaryCap Rule.cap?
  split at h
  next heffect => rw [heffect]
  next => cases h

/-- A rule does not look at its second counter if it can be evaluated and has a cap on spending. -/
theorem ignoresSecondaryCap_iff {r : Rule α} :
    ignoresSecondaryCap r = true ↔
      r.isSupported = true ∧ ∃ cap ∈ r.cap?, cap.mode = .spending ∧ cap.secondary ≠ none := by
  have hsupported : ignoresSecondaryCap r = true → r.isSupported = true := by
    intro h
    rw [Rule.isSupported, Option.isNone_iff_eq_none]
    refine Option.eq_none_iff_forall_ne_some.mpr fun defect hdefect => ?_
    rw [ignoresSecondaryCap_eq_false hdefect] at h
    cases h
  rw [← and_iff_right_of_imp hsupported, ignoresSecondaryCap]
  refine and_congr_right fun _ => ?_
  cases r.cap? with
  | none => simp
  | some cap => simp [Option.isSome_iff_ne_none]

/-! ## Findings of one kind -/

section Kinds

theorem filterMap_singleton {β γ : Type} (read : β → Option γ) (value : β) :
    [value].filterMap read = (read value).toList := by
  cases h : read value <;> simp [h]

theorem flatMap_eq_map_filter {β γ : Type} {f : β → List γ} {keep : β → Bool} {g : β → γ}
    (h : ∀ x, f x = if keep x then [g x] else []) (xs : List β) :
    xs.flatMap f = (xs.filter keep).map g := by
  induction xs with
  | nil => rfl
  | cons x xs ih =>
    rw [List.flatMap_cons, h, ih, List.filter_cons]
    split <;> rfl

variable {b : RuleBook α} {γ : Type} {read : Finding → Option γ}

/-- What there is to find about categories, cards, campaigns and tiers. -/
theorem filterMap_otherFindings (hread : Finding.ReadsWarnings read) :
    (b.categoryFindings ++ b.cardFindings ++ b.campaignFindings ++ b.tierFindings).filterMap read =
      [] := by
  refine List.filterMap_eq_nil_iff.mpr fun finding hmem => hread finding ?_
  simp only [List.mem_append] at hmem
  rcases hmem with ((hcategory | hcard) | hcampaign) | htier
  · unfold categoryFindings at hcategory
    split at hcategory
    next => cases hcategory
    next =>
      obtain ⟨spec, -, h⟩ := List.mem_flatMap.mp hcategory
      obtain ⟨category, -, rfl⟩ := List.mem_map.mp h
      rfl
  · obtain ⟨card, -, h⟩ := List.mem_flatMap.mp hcard
    rcases List.mem_append.mp h with h | h
    · obtain ⟨listed, -, rfl⟩ := List.mem_map.mp h
      rfl
    · split at h
      next => cases h
      next =>
        rw [List.mem_singleton.mp h]
        rfl
  · obtain ⟨campaign, -, h⟩ := List.mem_flatMap.mp hcampaign
    obtain ⟨listed, -, rfl⟩ := List.mem_map.mp h
    rfl
  · unfold tierFindings at htier
    split at htier
    next => cases htier
    next =>
      obtain ⟨level, -, h⟩ := List.mem_filterMap.mp htier
      split at h
      next => cases h
      next =>
        rw [← Option.some.inj h]
        rfl

variable [Amount α]

/-- Of what there is to find about a rule, only that it cannot be evaluated, or does not look at its
second counter, is about what becomes of it. -/
theorem filterMap_ruleFindings (hread : Finding.ReadsWarnings read)
    (conflicted : List String) (spec : RuleSpec α) :
    (b.ruleFindings conflicted spec).filterMap read =
      match b.rule? spec.id with
      | none => []
      | some r =>
        match r.defect? with
        | some defect =>
          if spec.id ∈ conflicted then []
          else (read (.unsupportedRule spec.id defect.message)).toList
        | none =>
          if ignoresSecondaryCap r then (read (.ignoredSecondaryCap spec.id)).toList
          else [] := by
  unfold ruleFindings
  cases b.rule? spec.id with
  | none => rfl
  | some r =>
    cases hdefect : r.defect? with
    | some defect =>
      simp only [hdefect, List.contains_iff_mem]
      split
      · rfl
      · exact filterMap_singleton ..
    | none =>
      simp only [hdefect, List.filterMap_append]
      refine (congrArg₂ (· ++ ·) ?_ (List.filterMap_eq_nil_iff.mpr ?_)).trans (List.append_nil _)
      · split
        · exact filterMap_singleton ..
        · rfl
      · intro finding hmem
        refine hread finding ?_
        obtain ⟨mission, -, h⟩ := List.mem_filterMap.mp hmem
        split at h
        next => cases h
        next =>
          obtain rfl := Option.some.inj h
          rfl

/-- The findings about what becomes of the rules: first those of the counters that are shared, then
those of each rule. -/
theorem filterMap_findings (hread : Finding.ReadsWarnings read) :
    b.findings.filterMap read =
      b.conflicts.filterMap (fun conflict => read (.sharedCapKey conflict.1 conflict.2)) ++
        b.scheme.rules.flatMap fun spec =>
          (b.ruleFindings (b.conflicts.flatMap (·.2)) spec).filterMap read := by
  have hsplit : b.findings = b.rulesFindings ++
      (b.categoryFindings ++ b.cardFindings ++ b.campaignFindings ++ b.tierFindings) := by
    simp only [findings, List.append_assoc]
  rw [hsplit, List.filterMap_append, filterMap_otherFindings hread, List.append_nil, rulesFindings,
    List.filterMap_append, List.filterMap_map, List.filterMap_flatMap]
  rfl

end Kinds

variable [Amount α]

/-- The rules that an audit reports as ones that cannot be evaluated. -/
def reportedUnsupported (b : RuleBook α) : List String := b.findings.filterMap Finding.unsupported?

/-- The counters that an audit reports as shared, each with the rules that share it. -/
def reportedShared (b : RuleBook α) : List (String × List String) :=
  b.findings.filterMap Finding.shared?

/-- The rules that an audit reports for a second counter that is not looked at. -/
def reportedIgnored (b : RuleBook α) : List String := b.findings.filterMap Finding.ignored?

variable {b : RuleBook α} {id : String}

/-- Reported by themselves are the rules that cannot be evaluated, but for those in a conflict. -/
theorem reportedUnsupported_eq (b : RuleBook α) :
    b.reportedUnsupported = (b.scheme.rules.filter fun spec =>
      spec.id ∉ b.conflicts.flatMap (·.2) ∧ (b.rule? spec.id).any (!·.isSupported)).map (·.id) := by
  have hshared : b.conflicts.filterMap
      (fun conflict => (Finding.sharedCapKey conflict.1 conflict.2).unsupported?) = [] :=
    List.filterMap_eq_nil_iff.mpr fun _ _ => rfl
  rw [reportedUnsupported, filterMap_findings Finding.readsWarnings_unsupported?, hshared,
    List.nil_append]
  refine flatMap_eq_map_filter (fun spec => ?_) _
  rw [filterMap_ruleFindings Finding.readsWarnings_unsupported?]
  cases b.rule? spec.id with
  | none => simp
  | some r =>
    cases hdefect : r.defect? with
    | none => simp [Rule.isSupported, hdefect, Finding.unsupported?]
    | some defect =>
      by_cases hin : spec.id ∈ b.conflicts.flatMap (·.2)
      · simp only [hin]
        simp [hdefect]
      · simp only [hin]
        simp [Rule.isSupported, hdefect, Finding.unsupported?]

/-- Reported as shared are the counters in conflict. -/
theorem reportedShared_eq (b : RuleBook α) : b.reportedShared = b.conflicts := by
  have hrules : (b.scheme.rules.flatMap fun spec =>
      (b.ruleFindings (b.conflicts.flatMap (·.2)) spec).filterMap Finding.shared?) = [] := by
    refine List.flatMap_eq_nil_iff.mpr fun spec _ => ?_
    rw [filterMap_ruleFindings Finding.readsWarnings_shared?]
    split
    · rfl
    · split <;> split <;> rfl
  rw [reportedShared, filterMap_findings Finding.readsWarnings_shared?, hrules, List.append_nil]
  exact List.filterMap_some

/-- Reported for their second counters are the rules that do not look at theirs. -/
theorem reportedIgnored_eq (b : RuleBook α) :
    b.reportedIgnored =
      (b.scheme.rules.filter fun spec => (b.rule? spec.id).any ignoresSecondaryCap).map (·.id) := by
  have hshared : b.conflicts.filterMap
      (fun conflict => (Finding.sharedCapKey conflict.1 conflict.2).ignored?) = [] :=
    List.filterMap_eq_nil_iff.mpr fun _ _ => rfl
  rw [reportedIgnored, filterMap_findings Finding.readsWarnings_ignored?, hshared, List.nil_append]
  refine flatMap_eq_map_filter (fun spec => ?_) _
  rw [filterMap_ruleFindings Finding.readsWarnings_ignored?]
  cases b.rule? spec.id with
  | none => rfl
  | some r =>
    cases hdefect : r.defect? with
    | none => cases hignores : ignoresSecondaryCap r <;> simp [hdefect, hignores, Finding.ignored?]
    | some defect => simp [hdefect, ignoresSecondaryCap_eq_false hdefect, Finding.ignored?]

theorem mem_reportedUnsupported_iff :
    id ∈ b.reportedUnsupported ↔
      (∃ spec ∈ b.scheme.rules, spec.id = id) ∧ (∃ r, b.rule? id = some r ∧ r.isSupported = false) ∧
        ∀ conflict ∈ b.conflicts, id ∉ conflict.2 := by
  rw [reportedUnsupported_eq, List.mem_map]
  simp only [List.mem_filter, decide_eq_true_eq, Option.any_eq_true, Bool.not_eq_true',
    List.mem_flatMap, not_exists, not_and]
  constructor
  · rintro ⟨spec, ⟨hspec, hfree, hunsupported⟩, rfl⟩
    exact ⟨⟨spec, hspec, rfl⟩, hunsupported, hfree⟩
  · rintro ⟨⟨spec, hspec, rfl⟩, hunsupported, hfree⟩
    exact ⟨spec, ⟨hspec, hfree, hunsupported⟩, rfl⟩

theorem mem_reportedIgnored_iff :
    id ∈ b.reportedIgnored ↔
      (∃ spec ∈ b.scheme.rules, spec.id = id) ∧
        ∃ r, b.rule? id = some r ∧ ignoresSecondaryCap r = true := by
  rw [reportedIgnored_eq, List.mem_map]
  simp only [List.mem_filter, Option.any_eq_true]
  constructor
  · rintro ⟨spec, ⟨hspec, hignores⟩, rfl⟩
    exact ⟨⟨spec, hspec, rfl⟩, hignores⟩
  · rintro ⟨⟨spec, hspec, rfl⟩, hignores⟩
    exact ⟨spec, ⟨hspec, hignores⟩, rfl⟩

theorem nodup_reportedUnsupported (distinct : (b.scheme.rules.map (·.id)).Nodup) :
    b.reportedUnsupported.Nodup := by
  rw [reportedUnsupported_eq]
  exact distinct.sublist (List.filter_sublist.map _)

theorem nodup_reportedIgnored (distinct : (b.scheme.rules.map (·.id)).Nodup) :
    b.reportedIgnored.Nodup := by
  rw [reportedIgnored_eq]
  exact distinct.sublist (List.filter_sublist.map _)

/-! ## Rules by id -/

variable {scheme : Scheme α} {spec : RuleSpec α} {r : Rule α}

/-- A rule in the rule book is the one that some specification comes to. -/
theorem exists_spec_of_rule? (h : (ofScheme scheme).rule? id = some r) :
    ∃ spec ∈ scheme.rules, spec.id = id := by
  obtain ⟨spec, hid, hcomes⟩ := Rule.exists_comesOf h
  exact ⟨spec, hcomes.last.mem, hid⟩

/-- Where no id is given twice, a specification comes to the rule under its id. -/
theorem exists_rule?_of_mem (distinct : (scheme.rules.map (·.id)).Nodup)
    (hspec : spec ∈ scheme.rules) :
    ∃ r, (ofScheme scheme).rule? spec.id = some r ∧ r.ComesOf scheme.rules spec := by
  have hkey : spec.id ∈ (Rule.compileAll scheme.rules).keys := by
    rw [Rule.keys_compileAll, Text.mem_sortedSet]
    exact List.mem_map_of_mem hspec
  obtain ⟨r, hr⟩ := Dict.mem_keys_iff.mp hkey
  obtain ⟨spec', hid, hcomes⟩ := Rule.exists_comesOf hr
  obtain rfl := List.inj_on_of_nodup_map distinct hcomes.last.mem hspec hid
  exact ⟨r, hr, hcomes⟩

/-- A rule that an audit finds in a conflict is in one for the rule book as well. -/
theorem unsupported_of_mem_conflicts (distinct : (scheme.rules.map (·.id)).Nodup)
    {conflict : String × List String} (hconflict : conflict ∈ (ofScheme scheme).conflicts)
    (hid : id ∈ conflict.2) :
    ∃ r, (ofScheme scheme).rule? id = some r ∧ r.isSupported = false := by
  obtain ⟨_, hr, rfl, mode, huses, _, hr', mode', hne, huses'⟩ :=
    Rule.exists_clash_of_mem_capConflicts hconflict hid
  obtain ⟨spec, hspec, rfl⟩ := List.mem_map.mp hr
  obtain ⟨other, hother, rfl⟩ := List.mem_map.mp hr'
  have hclashes : (Rule.ofSpec spec).Clashes scheme.rules ⟨conflict.1⟩ :=
    ⟨mode, huses, other, (RuleSpec.standsLast_iff_mem distinct).mpr hother, mode', hne, huses'⟩
  obtain ⟨r, hr, hcomes⟩ := exists_rule?_of_mem distinct hspec
  obtain ⟨key, -, hdowngraded⟩ := hcomes.downgraded (hcomes.differs_iff.mpr ⟨_, hclashes⟩)
  rw [Rule.id_ofSpec]
  refine ⟨r, hr, ?_⟩
  rw [hdowngraded]
  rfl

/-! ## The rule book and its audit -/

/-- An audit reports what the rules of a rule book are. -/
structure ReportsRules (b : RuleBook α) : Prop where
  /-- A rule that cannot be evaluated is reported once by itself, or with a counter. -/
  unsupported_iff : ∀ id, (∃ r, b.rule? id = some r ∧ r.isSupported = false) ↔
    b.reportedUnsupported.count id = 1 ∨ ∃ shared ∈ b.reportedShared, id ∈ shared.2
  /-- It is not reported in both ways. -/
  separate : ∀ id ∈ b.reportedUnsupported, ∀ shared ∈ b.reportedShared, id ∉ shared.2
  shared : Rule.ListsConflicts (b.scheme.rules.map Rule.ofSpec) b.reportedShared
  ignored_iff : ∀ id, id ∈ b.reportedIgnored ↔ ∃ r, b.rule? id = some r ∧ r.isSupported = true ∧
    ∃ cap ∈ r.cap?, cap.mode = .spending ∧ cap.secondary ≠ none
  ignored_once : b.reportedIgnored.Nodup

theorem unsupported_iff_reported (distinct : (scheme.rules.map (·.id)).Nodup) (id : String) :
    (∃ r, (ofScheme scheme).rule? id = some r ∧ r.isSupported = false) ↔
      (ofScheme scheme).reportedUnsupported.count id = 1 ∨
        ∃ shared ∈ (ofScheme scheme).reportedShared, id ∈ shared.2 := by
  have honce : (ofScheme scheme).reportedUnsupported.count id = 1 ↔
      id ∈ (ofScheme scheme).reportedUnsupported :=
    ⟨fun h => List.count_pos_iff.mp (by omega),
      List.count_eq_one_of_mem (nodup_reportedUnsupported distinct)⟩
  rw [honce, reportedShared_eq, mem_reportedUnsupported_iff]
  constructor
  · rintro ⟨r, hr, hunsupported⟩
    by_cases hin : ∃ conflict ∈ (ofScheme scheme).conflicts, id ∈ conflict.2
    · exact .inr hin
    · exact .inl ⟨exists_spec_of_rule? hr, ⟨r, hr, hunsupported⟩, by simpa using hin⟩
  · rintro (⟨-, hunsupported, -⟩ | ⟨conflict, hconflict, hin⟩)
    · exact hunsupported
    · exact unsupported_of_mem_conflicts distinct hconflict hin

theorem mem_reportedIgnored_ofScheme_iff :
    id ∈ (ofScheme scheme).reportedIgnored ↔
      ∃ r, (ofScheme scheme).rule? id = some r ∧ r.isSupported = true ∧
        ∃ cap ∈ r.cap?, cap.mode = .spending ∧ cap.secondary ≠ none := by
  rw [mem_reportedIgnored_iff]
  simp only [ignoresSecondaryCap_iff]
  refine and_iff_right_of_imp ?_
  rintro ⟨r, hr, -⟩
  exact exists_spec_of_rule? hr

/-- **An audit and the rule book agree on the rules** where no id is given twice. -/
theorem reports_agree (distinct : (scheme.rules.map (·.id)).Nodup) :
    (ofScheme scheme).ReportsRules where
  unsupported_iff := unsupported_iff_reported distinct
  separate id hid := by
    rw [reportedShared_eq]
    exact (mem_reportedUnsupported_iff.mp hid).2.2
  shared := by
    rw [reportedShared_eq]
    exact Rule.listsConflicts_capConflicts _
  ignored_iff _ := mem_reportedIgnored_ofScheme_iff
  ignored_once := nodup_reportedIgnored distinct

/-- The rules of `Rule.chain`, and an observer that names no mission. -/
def crossed : Scheme Binary64 :=
  Sample.single (Rule.chain ++ [RuleSpec.ofKind "gift" .missionObserver])

/-- The rule in two conflicts is reported with both counters, the observer by itself, and the one
that is in no conflict for its second counter. -/
theorem reports_agree_crossed :
    let b := ofScheme crossed
    b.reportedShared = [("first", ["dining", "online"]), ("third", ["online", "travel"])] ∧
      (∃ r, b.rule? "online" = some r ∧ r.isSupported = false) ∧
      (∃ r, b.rule? "gift" = some r ∧ r.isSupported = false) ∧
      ∃ r, b.rule? "fuel" = some r ∧ r.isSupported = true ∧
        ∃ cap ∈ r.cap?, cap.mode = .spending ∧ cap.secondary ≠ none := by
  intro b
  have h : b.ReportsRules := reports_agree (by decide +kernel)
  have hshared : b.reportedShared =
      [("first", ["dining", "online"]), ("third", ["online", "travel"])] := by decide +kernel
  have hunsupported : b.reportedUnsupported = ["gift"] := by decide +kernel
  have hignored : b.reportedIgnored = ["fuel"] := by decide +kernel
  refine ⟨hshared, (h.unsupported_iff "online").mpr (.inr ?_),
    (h.unsupported_iff "gift").mpr (.inl ?_), (h.ignored_iff "fuel").mp ?_⟩
  · rw [hshared]
    exact ⟨_, List.mem_cons_self .., by decide⟩
  · rw [hunsupported]
    decide
  · rw [hignored]
    exact List.mem_singleton_self _

end RuleBook

end CardRewards
