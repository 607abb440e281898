import CardRewards.Proofs.Rule.Reported
import CardRewards.Quote.Evaluate

/-!
# Second counters that are configured

A rule of flat rate may name a second counter with a limit of its own. What becomes of it is told
by the warnings of an audit (`Finding.WarnsOf`): that the rule cannot be evaluated, that a counter
of it is shared between modes, or that the second counter of a cap on spending is not looked at. An
audit warns of a rule exactly for one of these three reasons: `RuleBook.exists_warning_iff`.

So a second counter is in force or the audit warns of its rule, unless there is nothing that it
would be second to. A check that finds neither a limit nor a key for the first counter does not look
at the second one (`RuleSpec.checkCap_eq_none_iff`); the rule then grants its rate without any
limit, and the audit has nothing to say about it. That is the only gap:
`RuleBook.secondary_kept_or_reported_iff`.
-/

namespace CardRewards

/-- A finding warns of a rule: it cannot be evaluated, shares a counter between modes, or has a
second counter that is not looked at. -/
def Finding.WarnsOf (ruleId : String) : Finding → Prop
  | .unsupportedRule id _ => id = ruleId
  | .sharedCapKey _ ruleIds => ruleId ∈ ruleIds
  | .ignoredSecondaryCap id => id = ruleId
  | _ => False

variable {α : Type} [Amount α]

namespace Rule

/-- The second counter of a rule is in force: it limits rewards, and by what was configured. -/
def KeepsSecondary (r : Rule α) (key : String) (limit : α) : Prop :=
  ∃ cap ∈ r.cap?, cap.mode = .reward ∧ cap.secondary = some ⟨.configured key, limit⟩

/-- A rule of flat rate that names a second counter and passes its checks either names no first one,
and has no cap, or it has a cap in which the second counter is in force or not looked at. -/
theorem secondary_cases {spec : RuleSpec α} (supported : (ofSpec spec).isSupported = true)
    (hkind : RuleKind.read? spec.kind = some .flatCategory) {key : String} {limit : α}
    (hkey : spec.secondaryCapKey.bind Text.nonempty? = some key)
    (hlimit : spec.secondaryCapLimit = some limit) :
    spec.checkCap = .ok none ∨ (ofSpec spec).KeepsSecondary key limit ∨
      RuleBook.ignoresSecondaryCap (ofSpec spec) = true := by
  rcases effect_ofSpec_cases spec with hwritten | ⟨defect, hdefect⟩
  · generalize heffect : (ofSpec spec).effect = effect at hwritten
    cases hwritten with
    | @flat composition rate cap _ _ _ hcap =>
      have hcap? : (ofSpec spec).cap? = cap := by rw [cap?, heffect]
      cases cap with
      | none => exact .inl hcap
      | some cap =>
        refine .inr ?_
        have hcapWritten := written_of_cap?_ofSpec hcap?
        have hsecondary : cap.secondary = some ⟨.configured key, limit⟩ := by
          have hkeys := hcapWritten.secondaryKey
          have hlimits := RuleSpec.eq_of_optionalAmount hcapWritten.secondaryLimit
          rw [hkey] at hkeys
          rw [hlimit] at hlimits
          obtain ⟨second, hsecond, hlimit⟩ := Option.map_eq_some_iff.mp hlimits
          rw [hsecond] at hkeys ⊢
          rw [← hlimit, Option.some.inj hkeys]
        cases hmode : cap.mode with
        | reward => exact .inl ⟨cap, hcap?, hmode, hsecondary⟩
        | spending =>
          refine .inr ?_
          simp [RuleBook.ignoresSecondaryCap, hcap?, hmode, hsecondary]
    | base hother | tiered hother | flexible hother | fixedBonus hother | observer hother =>
      rw [hkind] at hother
      cases hother
  · simp [isSupported, defect?, hdefect] at supported

/-- A rule that names no first counter has no cap. -/
theorem cap?_eq_none_of_unnamed {spec : RuleSpec α}
    (h : spec.capKey.bind Text.nonempty? = none) : (ofSpec spec).cap? = none := by
  refine Option.eq_none_iff_forall_ne_some.mpr fun cap hcap => ?_
  have hkey := (written_of_cap?_ofSpec hcap).key
  rw [h] at hkey
  cases hkey

end Rule

namespace RuleBook

variable {b : RuleBook α} {id : String}

/-! ## What an audit warns of -/

/-- An audit warns of a rule if it reports it in one of the three ways. -/
theorem exists_warnsOf_iff :
    (∃ finding ∈ b.findings, finding.WarnsOf id) ↔
      id ∈ b.reportedUnsupported ∨ (∃ shared ∈ b.reportedShared, id ∈ shared.2) ∨
        id ∈ b.reportedIgnored := by
  simp only [reportedUnsupported, reportedShared, reportedIgnored, List.mem_filterMap]
  constructor
  · rintro ⟨finding, hmem, hwarns⟩
    cases finding with
    | unsupportedRule ruleId reason => exact .inl ⟨_, hmem, congrArg some hwarns⟩
    | sharedCapKey key ruleIds => exact .inr (.inl ⟨_, ⟨_, hmem, rfl⟩, hwarns⟩)
    | ignoredSecondaryCap ruleId => exact .inr (.inr ⟨_, hmem, congrArg some hwarns⟩)
    | _ => cases hwarns
  · rintro (⟨finding, hmem, hread⟩ | ⟨shared, ⟨finding, hmem, hread⟩, hin⟩ | ⟨finding, hmem, hread⟩)
    all_goals
      refine ⟨finding, hmem, ?_⟩
      -- the finding is of the one kind in which there is something to read
      cases finding <;> cases hread
    · rfl
    · exact hin
    · rfl

/-- **An audit warns of a rule** exactly if a counter that it uses is shared, or the rule in the
rule book cannot be evaluated or has a second counter that is not looked at. -/
theorem exists_warning_iff :
    (∃ finding ∈ b.findings, finding.WarnsOf id) ↔
      (∃ conflict ∈ b.conflicts, id ∈ conflict.2) ∨
        ∃ spec ∈ b.scheme.rules, spec.id = id ∧ ∃ r, b.rule? id = some r ∧
          (r.isSupported = false ∨ ignoresSecondaryCap r = true) := by
  rw [exists_warnsOf_iff, reportedShared_eq, mem_reportedUnsupported_iff, mem_reportedIgnored_iff]
  constructor
  · rintro (⟨⟨spec, hspec, hid⟩, ⟨r, hr, hcase⟩, -⟩ | hshared | ⟨⟨spec, hspec, hid⟩, r, hr, hcase⟩)
    · exact .inr ⟨spec, hspec, hid, r, hr, .inl hcase⟩
    · exact .inl hshared
    · exact .inr ⟨spec, hspec, hid, r, hr, .inr hcase⟩
  · rintro (hshared | ⟨spec, hspec, hid, r, hr, hcase | hcase⟩)
    · exact .inr (.inl hshared)
    · by_cases hshared : ∃ conflict ∈ b.conflicts, id ∈ conflict.2
      · exact .inr (.inl hshared)
      · exact .inl ⟨⟨spec, hspec, hid⟩, ⟨r, hr, hcase⟩, by simpa using hshared⟩
    · exact .inr (.inr ⟨⟨spec, hspec, hid⟩, r, hr, hcase⟩)

/-! ## What becomes of a second counter -/

variable {scheme : Scheme α} {spec : RuleSpec α}

/-- A rule without a cap is in no conflict. -/
theorem not_mem_conflicts_of_cap?_eq_none (distinct : (scheme.rules.map (·.id)).Nodup)
    (hspec : spec ∈ scheme.rules) (hcap : (Rule.ofSpec spec).cap? = none) :
    ∀ conflict ∈ (ofScheme scheme).conflicts, spec.id ∉ conflict.2 := by
  intro conflict hconflict hin
  obtain ⟨r, hr, hid, mode, ⟨cap, hused, -⟩, -⟩ :=
    Rule.exists_clash_of_mem_capConflicts hconflict hin
  obtain ⟨spec', hspec', rfl⟩ := List.mem_map.mp hr
  rw [Rule.id_ofSpec] at hid
  obtain rfl := List.inj_on_of_nodup_map distinct hspec' hspec hid
  rw [hcap] at hused
  exact absurd hused (Option.not_mem_none cap)

/-- A rule without a cap clashes with none, so it stands in the rule book as it was checked. -/
theorem rule?_of_cap?_eq_none (distinct : (scheme.rules.map (·.id)).Nodup)
    (hspec : spec ∈ scheme.rules) (hcap : (Rule.ofSpec spec).cap? = none) :
    (ofScheme scheme).rule? spec.id = some (Rule.ofSpec spec) := by
  obtain ⟨r, hr, hcomes⟩ := exists_rule?_of_mem distinct hspec
  have hsame : r = Rule.ofSpec spec := by
    refine Classical.byContradiction fun hne => ?_
    obtain ⟨_, ⟨_, ⟨cap, hused, -⟩, -⟩, -⟩ := hcomes.downgraded hne
    rw [hcap] at hused
    exact absurd hused (Option.not_mem_none cap)
  rw [hr, hsame]

/-- A rule in the rule book has the second counter in force, has lost its effect or does not look at
the second counter, unless it passed its checks without a first one. -/
theorem kept_or_warned {r : Rule α} (hcomes : r.ComesOf scheme.rules spec)
    (hkind : RuleKind.read? spec.kind = some .flatCategory) {key : String} {limit : α}
    (hkey : spec.secondaryCapKey.bind Text.nonempty? = some key)
    (hlimit : spec.secondaryCapLimit = some limit)
    (hnamed : (Rule.ofSpec spec).isSupported = true → spec.checkCap ≠ .ok none) :
    r.KeepsSecondary key limit ∨ r.isSupported = false ∨ ignoresSecondaryCap r = true := by
  by_cases hsame : r = Rule.ofSpec spec
  · subst hsame
    cases hsupported : (Rule.ofSpec spec).isSupported with
    | false => exact .inr (.inl rfl)
    | true =>
      rcases Rule.secondary_cases hsupported hkind hkey hlimit with hnone | hkept | hignored
      · exact absurd hnone (hnamed hsupported)
      · exact .inl hkept
      · exact .inr (.inr hignored)
  · obtain ⟨_, -, rfl⟩ := hcomes.downgraded hsame
    exact .inr (.inl rfl)

/-- **A second counter is in force, or an audit warns of its rule**, unless the rule passes its
checks without a first counter. Then it is in the rule book without any cap, and no finding warns of
it. -/
theorem secondary_kept_or_reported_iff (distinct : (scheme.rules.map (·.id)).Nodup)
    (hspec : spec ∈ scheme.rules) (hkind : RuleKind.read? spec.kind = some .flatCategory)
    {key : String} {limit : α} (hkey : spec.secondaryCapKey = some key) (hne : key ≠ "")
    (hlimit : spec.secondaryCapLimit = some limit) :
    let b := ofScheme scheme
    let unlimited := spec.capLimit = none ∧ spec.capKey.bind Text.nonempty? = none ∧
      (Rule.ofSpec spec).isSupported = true
    (((∃ r, b.rule? spec.id = some r ∧ r.KeepsSecondary key limit) ∨
        ∃ finding ∈ b.findings, finding.WarnsOf spec.id) ↔ ¬ unlimited) ∧
      (unlimited → ∃ r, b.rule? spec.id = some r ∧ r.isSupported = true ∧ r.cap? = none) := by
  intro b unlimited
  have hsecond : spec.secondaryCapKey.bind Text.nonempty? = some key := by
    simp [hkey, Text.nonempty?, hne]
  have hopen : unlimited →
      b.rule? spec.id = some (Rule.ofSpec spec) ∧ (Rule.ofSpec spec).cap? = none := by
    rintro ⟨-, hnoKey, -⟩
    have hcap := Rule.cap?_eq_none_of_unnamed hnoKey
    exact ⟨rule?_of_cap?_eq_none distinct hspec hcap, hcap⟩
  refine ⟨?_, fun h => ⟨_, (hopen h).1, h.2.2, (hopen h).2⟩⟩
  rw [exists_warning_iff]
  constructor
  · intro h hunlimited
    obtain ⟨hr, hcap⟩ := hopen hunlimited
    rcases h with ⟨r, hr', cap, hkept, -⟩ | ⟨conflict, hconflict, hin⟩ | ⟨-, -, -, r, hr', hcase⟩
    · obtain rfl := Option.some.inj (hr.symm.trans hr')
      rw [hcap] at hkept
      exact absurd hkept (Option.not_mem_none cap)
    · exact not_mem_conflicts_of_cap?_eq_none distinct hspec hcap conflict hconflict hin
    · obtain rfl := Option.some.inj (hr.symm.trans hr')
      simp [hunlimited.2.2, ignoresSecondaryCap, hcap] at hcase
  · intro hlimited
    obtain ⟨r, hr, hcomes⟩ := exists_rule?_of_mem distinct hspec
    have hnamed (hsupported : (Rule.ofSpec spec).isSupported = true) :
        spec.checkCap ≠ .ok none := by
      intro hnone
      obtain ⟨hnoLimit, hnoKey⟩ := RuleSpec.checkCap_eq_none_iff.mp hnone
      exact hlimited ⟨hnoLimit, hnoKey, hsupported⟩
    rcases kept_or_warned hcomes hkind hsecond hlimit hnamed with hkept | hcase
    · exact .inl ⟨r, hr, hkept⟩
    · exact .inr (.inr ⟨spec, hspec, rfl, r, hr, hcase⟩)

/-- A rule on dining that names a second counter for its rewards and no first one. -/
def secondOnly : RuleSpec Binary64 :=
  (RuleSpec.flat "dining" (Sample.thousandths 100) ["dining"]).cappedAgain "shared"
    (Sample.whole 200)

/-- Put on a first counter the second one is in force, and there is nothing to warn of. On a cap on
spending it is not, and the audit says so. -/
theorem secondary_kept_or_reported_iff_firstNamed :
    let kept : RuleSpec Binary64 := secondOnly.capped .reward "k" (Sample.whole 300)
    let ignored : RuleSpec Binary64 := secondOnly.capped .spending "k" (Sample.whole 3000)
    (∃ r, (ofScheme (Sample.single [kept])).rule? "dining" = some r ∧
        r.KeepsSecondary "shared" (Sample.whole 200)) ∧
      ∃ finding ∈ (ofScheme (Sample.single [ignored])).findings, finding.WarnsOf "dining" := by
  intro kept ignored
  have distinct (spec : RuleSpec Binary64) :
      ((Sample.single [spec]).rules.map (·.id)).Nodup := List.nodup_singleton _
  have listed (spec : RuleSpec Binary64) : spec ∈ (Sample.single [spec]).rules :=
    List.mem_singleton_self spec
  have hkept := (secondary_kept_or_reported_iff (distinct kept) (listed kept) (by decide) rfl
    (by decide) rfl).1.mpr (by decide +kernel)
  have hignored := (secondary_kept_or_reported_iff (distinct ignored) (listed ignored) (by decide)
    rfl (by decide) rfl).1.mpr (by decide +kernel)
  constructor
  · rcases hkept with h | ⟨finding, hfinding, -⟩
    · exact h
    · have hnone : (ofScheme (Sample.single [kept])).findings = [] := by decide +kernel
      rw [hnone] at hfinding
      cases hfinding
  · rcases hignored with ⟨r, hr, cap, hcap, hmode, -⟩ | h
    · have hspending : (((ofScheme (Sample.single [ignored])).rule? ignored.id).bind
          (·.cap?)).map (·.mode) = some .spending := by decide +kernel
      rw [hr, Option.bind_some, hcap, Option.map_some, hmode] at hspending
      cases hspending
    · exact h

/-- Without a first counter the second one is not in force, and no finding warns of it: the rule
passes its checks, and a purchase of any size is granted the rate in full. -/
theorem secondary_dropped_firstUnnamed :
    let b : RuleBook Binary64 := ofScheme (Sample.single [secondOnly])
    (b.scheme.rules.map (·.id)).Nodup ∧ secondOnly ∈ b.scheme.rules ∧
      RuleKind.read? secondOnly.kind = some .flatCategory ∧
      secondOnly.secondaryCapKey = some "shared" ∧
      secondOnly.secondaryCapLimit = some (Sample.whole 200) ∧
      ¬ ((∃ r, b.rule? "dining" = some r ∧ r.KeepsSecondary "shared" (Sample.whole 200)) ∨
        ∃ finding ∈ b.findings, finding.WarnsOf "dining") ∧
      (b.quote (.held "card" "cash" ["dining"]) (Sample.whole 100000) "dining" .cash .empty
        .empty).nativeValue = Sample.whole 10000 := by
  intro b
  refine ⟨by decide, by decide +kernel, by decide, rfl, rfl, ?_, by decide +kernel⟩
  rintro (⟨r, hr, cap, hcap, -⟩ | ⟨finding, hfinding, -⟩)
  · have hnone : (b.rule? "dining").bind (·.cap?) = none := by decide +kernel
    rw [hr, Option.bind_some] at hnone
    rw [hnone] at hcap
    exact absurd hcap (Option.not_mem_none cap)
  · have hnone : b.findings = [] := by decide +kernel
    rw [hnone] at hfinding
    cases hfinding

end RuleBook

end CardRewards
