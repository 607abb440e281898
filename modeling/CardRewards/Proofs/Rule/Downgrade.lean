import CardRewards.Proofs.Rule.Check
import CardRewards.Proofs.Rule.Conflict
import CardRewards.Scheme.Sample
import Mathlib.Data.List.Nodup

/-!
# What conflicts between cap modes change

A list of specifications is checked in two steps, each by itself and then all against each other.
The conflicts are the counters that are used in both modes, each with all rules that use it
(`Rule.ListsConflicts`). So the second step takes the effect of a rule exactly if the rule uses a
counter that another one uses in the other mode (`Rule.Clashes`), and it changes nothing else. One
pass is enough, since a rule that has lost its effect uses no counter. What comes out therefore has
no conflict left in it, and it is a matter of the specifications that stand last under their ids
and not of their order: `Rule.compileAll_settles`.
-/

namespace CardRewards

/-! ## Specifications by id -/

namespace RuleSpec

variable {α : Type} {specs specs' : List (RuleSpec α)} {spec : RuleSpec α}

/-- A specification stands last in a list among those with its id. -/
def StandsLast (specs : List (RuleSpec α)) (spec : RuleSpec α) : Prop :=
  ∃ before after, specs = before ++ spec :: after ∧ ∀ later ∈ after, later.id ≠ spec.id

theorem StandsLast.mem (h : StandsLast specs spec) : spec ∈ specs := by
  obtain ⟨before, after, rfl, -⟩ := h
  exact List.mem_append_right before (List.mem_cons_self ..)

theorem find?_reverse_eq_some_iff {id : String} :
    specs.reverse.find? (·.id = id) = some spec ↔ StandsLast specs spec ∧ spec.id = id := by
  rw [List.find?_eq_some_iff_append]
  constructor
  · rintro ⟨hid, after, before, heq, hafter⟩
    have hid : spec.id = id := by simpa using hid
    refine ⟨⟨before.reverse, after.reverse, ?_, ?_⟩, hid⟩
    · rw [← List.reverse_reverse specs, heq]
      simp
    · intro later hlater
      have hne := hafter later (List.mem_reverse.mp hlater)
      simpa [hid] using hne
  · rintro ⟨⟨before, after, rfl, hafter⟩, rfl⟩
    refine ⟨by simp, after.reverse, before.reverse, by simp, ?_⟩
    intro later hlater
    simpa using hafter later (List.mem_reverse.mp hlater)

/-- Where no id is given twice every specification stands last. -/
theorem standsLast_iff_mem (distinct : (specs.map (·.id)).Nodup) :
    StandsLast specs spec ↔ spec ∈ specs := by
  refine ⟨StandsLast.mem, fun h => ?_⟩
  obtain ⟨before, after, rfl⟩ := List.append_of_mem h
  refine ⟨before, after, rfl, fun later hlater hid => ?_⟩
  rw [List.map_append, List.map_cons, List.nodup_append, List.nodup_cons] at distinct
  exact distinct.2.1.1 (List.mem_map.mpr ⟨later, hlater, hid⟩)

end RuleSpec

namespace Rule

variable {α : Type} [Amount α] {specs specs' : List (RuleSpec α)} {spec : RuleSpec α} {r : Rule α}
  {id : String}

/-! ## What is downgraded -/

/-- A rule uses a counter that one of the specifications which count, each checked by itself, uses
in the other mode. -/
def Clashes (specs : List (RuleSpec α)) (r : Rule α) (key : CounterKey) : Prop :=
  ∃ mode, r.Uses key mode ∧ ∃ other, RuleSpec.StandsLast specs other ∧
    ∃ mode', mode' ≠ mode ∧ (ofSpec other).Uses key mode'

theorem get?_standalone_eq_some_iff :
    (standalone specs).get? id = some r ↔
      ∃ spec, RuleSpec.StandsLast specs spec ∧ spec.id = id ∧ ofSpec spec = r := by
  rw [get?_standalone, Option.map_eq_some_iff]
  simp only [RuleSpec.find?_reverse_eq_some_iff, and_assoc]

theorem mem_values_standalone :
    r ∈ (standalone specs).values ↔ ∃ spec, RuleSpec.StandsLast specs spec ∧ ofSpec spec = r := by
  rw [Dict.mem_values_iff]
  simp only [get?_standalone_eq_some_iff]
  exact ⟨fun ⟨_, spec, hlast, _, heq⟩ => ⟨spec, hlast, heq⟩,
    fun ⟨spec, hlast, heq⟩ => ⟨_, spec, hlast, rfl, heq⟩⟩

/-- Of the rules checked by themselves each has an id of its own. -/
theorem eq_of_id_eq {r' : Rule α} (hr : r ∈ (standalone specs).values)
    (hr' : r' ∈ (standalone specs).values) (hid : r.id = r'.id) : r = r' := by
  obtain ⟨key, hkey⟩ := Dict.mem_values_iff.mp hr
  obtain ⟨key', hkey'⟩ := Dict.mem_values_iff.mp hr'
  obtain ⟨-, -, -, rfl⟩ := of_get?_standalone hkey
  obtain ⟨-, -, -, rfl⟩ := of_get?_standalone hkey'
  rw [hid, hkey'] at hkey
  exact (Option.some.inj hkey).symm

/-- A rule that is listed with a conflict clashes with another one over the counter. -/
theorem clashes_of_mem_capConflicts (hr : r ∈ (standalone specs).values)
    {conflict : String × List String} (h : conflict ∈ capConflicts (standalone specs).values)
    (hid : r.id ∈ conflict.2) : r.Clashes specs ⟨conflict.1⟩ := by
  obtain ⟨r', hr', hsame, mode, huses, other, hother, mode', hne, huses'⟩ :=
    exists_clash_of_mem_capConflicts h hid
  obtain rfl := eq_of_id_eq hr' hr hsame
  obtain ⟨spec, hlast, rfl⟩ := mem_values_standalone.mp hother
  exact ⟨mode, huses, spec, hlast, mode', hne, huses'⟩

theorem Clashes.exists_mem_capConflicts {key : CounterKey} (h : r.Clashes specs key)
    (hr : r ∈ (standalone specs).values) :
    ∃ conflict ∈ capConflicts (standalone specs).values, r.id ∈ conflict.2 := by
  obtain ⟨mode, huses, other, hlast, mode', hne, huses'⟩ := h
  have hmem : ofSpec other ∈ (standalone specs).values :=
    mem_values_standalone.mpr ⟨other, hlast, rfl⟩
  obtain ⟨conflict, hconflict, hid, -⟩ := mem_capConflicts_of_modes
    (List.mem_flatMap.mpr ⟨r, hr, uses_iff.mp huses⟩)
    (List.mem_flatMap.mpr ⟨_, hmem, uses_iff.mp huses'⟩) rfl hne.symm
  exact ⟨conflict, hconflict, hid⟩

/-- A rule that uses a counter is not the same without its effect. -/
theorem Clashes.downgrade_ne {key : CounterKey} (h : r.Clashes specs key) (defect : Defect α) :
    r.downgrade defect ≠ r := by
  obtain ⟨mode, ⟨cap, hcap, -⟩, -⟩ := h
  intro heq
  rw [← heq, cap?_downgrade] at hcap
  exact absurd hcap (Option.not_mem_none cap)

/-- What a rule is that was checked with a list of specifications: that of the last one with its id,
checked by itself, unless it clashes with another one. Then a counter over which it does is the
defect in place of its effect. -/
structure ComesOf (specs : List (RuleSpec α)) (spec : RuleSpec α) (r : Rule α) : Prop where
  last : RuleSpec.StandsLast specs spec
  differs_iff : r ≠ ofSpec spec ↔ ∃ key, (ofSpec spec).Clashes specs key
  downgraded : r ≠ ofSpec spec → ∃ key, (ofSpec spec).Clashes specs key ∧
    r = (ofSpec spec).downgrade (.sharedCapKey key.text)

theorem exists_comesOf (h : (compileAll specs).get? id = some r) :
    ∃ spec, spec.id = id ∧ r.ComesOf specs spec := by
  obtain ⟨r₀, hr₀, hcase⟩ := of_get?_compileAll h
  have hmem := Dict.mem_values_of_get? hr₀
  obtain ⟨spec, hlast, hid, rfl⟩ := get?_standalone_eq_some_iff.mp hr₀
  refine ⟨spec, hid, ?_⟩
  rcases hcase with ⟨rfl, hfree⟩ | ⟨conflict, hconflict, hin, rfl⟩
  · have hnone : ¬ ∃ key, (ofSpec spec).Clashes specs key := by
      rintro ⟨key, hclashes⟩
      obtain ⟨conflict, hconflict, hin⟩ := hclashes.exists_mem_capConflicts hmem
      exact hfree conflict hconflict hin
    exact ⟨hlast, iff_of_false (not_not_intro rfl) hnone, fun hne => absurd rfl hne⟩
  · have hclashes := clashes_of_mem_capConflicts hmem hconflict hin
    exact ⟨hlast, iff_of_true (hclashes.downgrade_ne _) ⟨_, hclashes⟩, fun _ => ⟨_, hclashes, rfl⟩⟩

/-! ## All specifications at once -/

/-- There is one rule for each id. -/
theorem keys_compileAll (specs : List (RuleSpec α)) :
    (compileAll specs).keys = Text.sortedSet (specs.map (·.id)) := by
  unfold compileAll standalone
  rw [Dict.keys_map, Dict.keys_ofList, List.map_map]
  rfl

/-- Rules that have been checked against each other have no conflict left. -/
theorem capConflicts_compileAll (specs : List (RuleSpec α)) :
    capConflicts (compileAll specs).values = [] := by
  refine List.eq_nil_iff_forall_not_mem.mpr fun conflict hconflict => ?_
  obtain ⟨r, hr, hspending⟩ := exists_uses_of_mem_capConflicts hconflict .spending
  obtain ⟨r', hr', hreward⟩ := exists_uses_of_mem_capConflicts hconflict .reward
  exact CapMode.noConfusion
    (mode_eq_of_key_eq hr hr' (uses_iff.mp hspending) (uses_iff.mp hreward) rfl)

/-- The order of specifications with ids of their own makes no difference. -/
theorem compileAll_perm (h : specs.Perm specs') (distinct : (specs.map (·.id)).Nodup) :
    compileAll specs' = compileAll specs := by
  have distinct' : (specs'.map (·.id)).Nodup := (h.map _).nodup_iff.mp distinct
  have hsame : standalone specs' = standalone specs := by
    refine Dict.ext_get? fun id => Option.ext fun r => ?_
    rw [get?_standalone_eq_some_iff, get?_standalone_eq_some_iff]
    simp only [RuleSpec.standsLast_iff_mem distinct, RuleSpec.standsLast_iff_mem distinct',
      h.mem_iff]
  unfold compileAll
  rw [hsame]

/-- **One pass settles all conflicts and changes nothing else.** A list of specifications comes to
one rule for each id, of the last specification with it. A rule is another one than the
specification comes to by itself exactly if it clashes with another one over a counter, and then
the defect in place of its effect is all that has changed. No conflict is left between the rules,
and the order of specifications with ids of their own makes no difference. -/
theorem compileAll_settles (specs : List (RuleSpec α)) :
    (compileAll specs).keys = Text.sortedSet (specs.map (·.id)) ∧
    (∀ id r, (compileAll specs).get? id = some r →
      ∃ spec, spec.id = id ∧ r.ComesOf specs spec) ∧
    capConflicts (compileAll specs).values = [] ∧
    ∀ specs', specs.Perm specs' → (specs.map (·.id)).Nodup →
      compileAll specs' = compileAll specs :=
  ⟨keys_compileAll specs, fun _ _ => exists_comesOf, capConflicts_compileAll specs,
    fun _ => compileAll_perm⟩

/-- Of three rules each shares a counter with the next one in the other mode, the second one its
second counter. A fourth one names that counter too, but as the second of a cap on spending. -/
def chain : List (RuleSpec Binary64) :=
  [(RuleSpec.flat "dining" (Sample.thousandths 50) ["dining"]).capped .spending "first"
      (Sample.whole 5000),
    ((RuleSpec.flat "online" (Sample.thousandths 50) ["online"]).capped .reward "third"
      (Sample.whole 200)).cappedAgain "first" (Sample.whole 300),
    (RuleSpec.flat "travel" (Sample.thousandths 20) ["travel"]).capped .spending "third"
      (Sample.whole 1000),
    ((RuleSpec.flat "fuel" (Sample.thousandths 20) ["fuel"]).capped .spending "own"
      (Sample.whole 1000)).cappedAgain "third" (Sample.whole 40)]

/-- The three lose their effects in one pass and the fourth keeps its own, in any order. -/
theorem compileAll_settles_chain :
    (compileAll chain).keys = ["dining", "fuel", "online", "travel"] ∧
      (compileAll chain).values.map (·.isSupported) = [false, true, false, false] ∧
      capConflicts (compileAll chain).values = [] ∧
      compileAll chain.reverse = compileAll chain ∧
      (∃ spec, spec.id = "online" ∧ ∃ key, (ofSpec spec).Clashes chain key) ∧
      ∃ spec, spec.id = "fuel" ∧ ¬ ∃ key, (ofSpec spec).Clashes chain key := by
  obtain ⟨hkeys, hcomes, hsettled, hperm⟩ := compileAll_settles chain
  have hdistinct : (chain.map (·.id)).Nodup := by decide +kernel
  have hspec (n : Fin 4) {spec : RuleSpec Binary64} (hmem : spec ∈ chain)
      (hid : spec.id = chain[n].id) : spec = chain[n] :=
    List.inj_on_of_nodup_map hdistinct hmem (List.getElem_mem ..) hid
  let online := ((compileAll chain).get? "online").get (by decide +kernel)
  let fuel := ((compileAll chain).get? "fuel").get (by decide +kernel)
  obtain ⟨spec, hid, honline⟩ := hcomes "online" online (Option.some_get _).symm
  obtain ⟨spec', hid', hfuel⟩ := hcomes "fuel" fuel (Option.some_get _).symm
  refine ⟨hkeys.trans (by decide +kernel), by decide +kernel, hsettled,
    hperm _ chain.reverse_perm.symm hdistinct,
    ⟨spec, hid, honline.differs_iff.mp ?_⟩, spec', hid', mt hfuel.differs_iff.mpr ?_⟩
  · rw [hspec 1 honline.last.mem hid]
    decide +kernel
  · rw [hspec 3 hfuel.last.mem hid', not_not]
    decide +kernel

end Rule

end CardRewards
