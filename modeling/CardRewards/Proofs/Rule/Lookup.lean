import CardRewards.Proofs.Rule.Check
import CardRewards.RuleBook
import CardRewards.Schedule
import CardRewards.Scheme.Sample
import Mathlib.Data.List.Nodup

/-!
# Rules by id

A rule is looked up in two places: as it is written in the scheme (`Scheme.rule?`), which is where
the schedule and the campaigns find it, and as it was checked in the rule book (`RuleBook.rule?`),
which is where evaluation finds it. A checked rule restates its specification: a conflict between
cap modes may take its effect, and all else stays (`Rule.Restates`).

The scheme finds the first specification with an id and the rule book the last one. So the two
look-ups speak of one rule where an id is defined once, `rule?_restates`, and of different rules
where it is defined in two ways, `rule?_of_two_definitions`.
-/

namespace CardRewards

namespace Scheme

variable {α : Type}

/-- The last rule with an id, as it is written. -/
def lastRule? (s : Scheme α) (id : String) : Option (RuleSpec α) :=
  s.rules.reverse.find? (·.id = id)

/-- All rules with an id are one and the same. -/
def DefinesOnce (s : Scheme α) (id : String) : Prop :=
  ∀ a ∈ s.rules, ∀ b ∈ s.rules, a.id = id → b.id = id → a = b

instance [DecidableEq α] (s : Scheme α) (id : String) : Decidable (s.DefinesOnce id) :=
  inferInstanceAs (Decidable (∀ a ∈ s.rules, ∀ b ∈ s.rules, a.id = id → b.id = id → a = b))

variable {s : Scheme α} {id : String} {spec : RuleSpec α}

theorem of_rule? (h : s.rule? id = some spec) : spec ∈ s.rules ∧ spec.id = id :=
  ⟨List.mem_of_find?_eq_some h, by simpa using List.find?_some h⟩

theorem of_lastRule? (h : s.lastRule? id = some spec) : spec ∈ s.rules ∧ spec.id = id :=
  ⟨List.mem_reverse.mp (List.mem_of_find?_eq_some h), by simpa using List.find?_some h⟩

/-- An id has a first rule if it has a last one. -/
theorem isSome_lastRule? (s : Scheme α) (id : String) :
    (s.lastRule? id).isSome = (s.rule? id).isSome := by
  rw [Bool.eq_iff_iff]
  simp only [lastRule?, rule?, List.find?_isSome, List.mem_reverse]

theorem definesOnce_of_nodup (h : (s.rules.map (·.id)).Nodup) (id : String) : s.DefinesOnce id :=
  fun _ ha _ hb hida hidb => List.inj_on_of_nodup_map h ha hb (hida.trans hidb.symm)

/-- Where an id is defined once, its first rule is its last one. -/
theorem lastRule?_eq_rule? (once : s.DefinesOnce id) : s.lastRule? id = s.rule? id := by
  cases hfirst : s.rule? id with
  | none =>
    have hnone := isSome_lastRule? s id
    rw [hfirst] at hnone
    exact Option.not_isSome_iff_eq_none.mp (by simp [hnone])
  | some first =>
    have hsome := isSome_lastRule? s id
    rw [hfirst] at hsome
    obtain ⟨last, hlast⟩ := Option.isSome_iff_exists.mp hsome
    obtain ⟨hmem, hid⟩ := of_rule? hfirst
    obtain ⟨hmem', hid'⟩ := of_lastRule? hlast
    rw [hlast, once last hmem' first hmem hid' hid]

end Scheme

/-- A rule is what a specification comes to. One of some conflicts may have taken its effect. -/
structure Rule.Restates {α : Type} [Amount α] (conflicts : List (String × List String))
    (r : Rule α) (spec : RuleSpec α) : Prop where
  id : r.id = spec.id
  label : r.label = spec.displayLabel
  categories : r.categories = spec.categories
  gates : r.gates = (ofSpec spec).gates
  effect : r.effect = (ofSpec spec).effect ∨
    ∃ conflict ∈ conflicts, spec.id ∈ conflict.2 ∧
      r.effect = .unsupported (.sharedCapKey conflict.1)

namespace Rule.Restates

variable {α : Type} [Amount α] {conflicts : List (String × List String)} {r : Rule α}
  {spec : RuleSpec α}

/-- A rule that can be evaluated was not taken its effect. -/
theorem effect_eq (h : r.Restates conflicts spec) (supported : r.isSupported = true) :
    r.effect = (ofSpec spec).effect := by
  rcases h.effect with heffect | ⟨conflict, -, -, heffect⟩
  · exact heffect
  · simp [isSupported, defect?, heffect] at supported

/-- The cap of a rule is the one that the specification writes. -/
theorem written_of_cap? (h : r.Restates conflicts spec) {cap : Cap α} (hcap : r.cap? = some cap) :
    cap.Written spec := by
  obtain ⟨composition, rate, heffect⟩ := effect_of_cap? hcap
  have hsame := h.effect_eq (by simp [isSupported, defect?, heffect])
  refine written_of_cap?_ofSpec ?_
  rw [← hcap, Rule.cap?, Rule.cap?, hsame]

/-- The mission that a rule counts for is the one that the specification names. -/
theorem missionId_of_observed? (h : r.Restates conflicts spec) {mission : String}
    (hobserved : r.observed? = some mission) :
    spec.missionId.bind Text.nonempty? = some mission := by
  have heffect := observed?_eq_some_iff.mp hobserved
  have hsame := h.effect_eq (by simp [isSupported, defect?, heffect])
  refine missionId_of_observed?_ofSpec ?_
  rw [← hobserved, Rule.observed?, Rule.observed?, hsame]

/-- The mission gate of a rule looks at the counter that the specification names. -/
theorem gateKey_of_mission (h : r.Restates conflicts spec) {gate : MissionGate α}
    (hgate : r.gates.mission = some gate) : spec.gateKey = .ok (some gate.key) := by
  rw [h.gates] at hgate
  exact (of_mission_ofSpec hgate).1

end Rule.Restates

namespace RuleBook

variable {α : Type} [Amount α] {scheme : Scheme α} {id : String} {r : Rule α}

/-- The conflicts between the rules of a scheme, of those with one id the last counting. -/
def conflictsOf (scheme : Scheme α) : List (String × List String) :=
  Rule.capConflicts (Rule.standalone scheme.rules).values

/-- The rule book has a rule under an id if the scheme has. -/
theorem isSome_rule?_ofScheme (scheme : Scheme α) (id : String) :
    ((ofScheme scheme).rule? id).isSome = (scheme.rule? id).isSome := by
  rw [rule?, ofScheme, Rule.compileAll, Dict.get?_map, Rule.get?_standalone, Option.isSome_map,
    Option.isSome_map]
  exact scheme.isSome_lastRule? id

/-- A rule in the rule book restates the last specification with its id. -/
theorem restates_of_rule? (h : (ofScheme scheme).rule? id = some r) :
    ∃ spec, scheme.lastRule? id = some spec ∧ r.Restates (conflictsOf scheme) spec := by
  obtain ⟨r₀, hr₀, hcase⟩ := Rule.of_get?_compileAll h
  rw [Rule.get?_standalone] at hr₀
  obtain ⟨spec, hspec, rfl⟩ := Option.map_eq_some_iff.mp hr₀
  refine ⟨spec, hspec, ?_⟩
  rcases hcase with ⟨rfl, -⟩ | ⟨conflict, hconflict, hid, rfl⟩
  · exact
      { id := Rule.id_ofSpec spec
        label := Rule.label_ofSpec spec
        categories := Rule.categories_ofSpec spec
        gates := rfl
        effect := .inl rfl }
  · rw [Rule.id_ofSpec] at hid
    exact
      { id := Rule.id_ofSpec spec
        label := Rule.label_ofSpec spec
        categories := Rule.categories_ofSpec spec
        gates := rfl
        effect := .inr ⟨conflict, hconflict, hid, rfl⟩ }

/-- **One id, one rule**: the rule book has a rule under an id exactly if the scheme has, and it
restates the last specification with the id. Where the id is defined once, that is the specification
which the scheme finds. -/
theorem rule?_restates (scheme : Scheme α) (id : String) :
    ((ofScheme scheme).rule? id).isSome = (scheme.rule? id).isSome ∧
      ∀ r, (ofScheme scheme).rule? id = some r →
        (∃ spec, scheme.lastRule? id = some spec ∧ r.Restates (conflictsOf scheme) spec) ∧
        (scheme.DefinesOnce id →
          ∃ spec, scheme.rule? id = some spec ∧ r.Restates (conflictsOf scheme) spec) := by
  refine ⟨isSome_rule?_ofScheme scheme id, fun r hr => ?_⟩
  obtain ⟨spec, hspec, hrestates⟩ := restates_of_rule? hr
  refine ⟨⟨spec, hspec, hrestates⟩, fun once => ⟨spec, ?_, hrestates⟩⟩
  rw [← Scheme.lastRule?_eq_rule? once, hspec]

/-- Two rules that count towards one cap, one of them rewards and the other one spending. -/
def sharedByTwo : Scheme Binary64 :=
  Sample.single
    [(RuleSpec.flat "dining" (Sample.thousandths 100) ["dining"]).capped .reward "shared"
        (Sample.whole 300),
      { (RuleSpec.flat "online" (Sample.thousandths 50) ["online"]).capped .spending "shared"
          (Sample.whole 5000) with
        label := some "Online" }]

/-- The conflict takes the effect of the second rule and leaves it as it is written otherwise. -/
theorem rule?_restates_sharedByTwo :
    sharedByTwo.DefinesOnce "online" ∧
      ∃ r spec, (ofScheme sharedByTwo).rule? "online" = some r ∧
        sharedByTwo.rule? "online" = some spec ∧
        r.Restates (conflictsOf sharedByTwo) spec ∧ r.label = "Online" ∧
        r.effect = .unsupported (.sharedCapKey "shared") := by
  have once : sharedByTwo.DefinesOnce "online" := by decide +kernel
  have hsome : ((ofScheme sharedByTwo).rule? "online").isSome = true := by
    rw [(rule?_restates sharedByTwo "online").1]
    decide +kernel
  obtain ⟨r, hr⟩ := Option.isSome_iff_exists.mp hsome
  obtain ⟨spec, hspec, hrestates⟩ := ((rule?_restates sharedByTwo "online").2 r hr).2 once
  have hshown : ((ofScheme sharedByTwo).rule? "online").map (fun r => (r.label, r.effect)) =
      some ("Online", .unsupported (.sharedCapKey "shared")) := by decide +kernel
  rw [hr] at hshown
  obtain ⟨hlabel, heffect⟩ := Prod.mk.inj (Option.some.inj hshown)
  exact ⟨once, r, spec, hr, hspec, hrestates, hlabel, heffect⟩

/-- Two rules on dining under one id, each with a cap of its own. -/
def twoDefinitions : Scheme Binary64 :=
  { (Sample.single
      [{ (RuleSpec.flat "dining" (Sample.thousandths 100) ["dining"]).capped .reward "first_cap"
          (Sample.whole 300) with
        label := some "first" },
        { (RuleSpec.flat "dining" (Sample.thousandths 50) ["dining"]).capped .reward "second_cap"
          (Sample.whole 100) with
        label := some "second" }]) with
    cards := [.held "card" "cash" ["dining"]] }

/-- Of two rules under one id the scheme finds the first and the rule book the second. A purchase is
charged to the cap of the second, and only that of the first is in the schedule. -/
theorem rule?_of_two_definitions :
    ∃ r spec, (ofScheme twoDefinitions).rule? "dining" = some r ∧
      twoDefinitions.rule? "dining" = some spec ∧ r.isSupported = true ∧
      r.label = "second" ∧ spec.displayLabel = "first" ∧
      r.effect ≠ (Rule.ofSpec spec).effect ∧
      r.cap?.map (·.key) = some (.configured "second_cap") ∧
      twoDefinitions.schedule.keys = ["first_cap"] := by
  let r := ((ofScheme twoDefinitions).rule? "dining").get (by decide +kernel)
  let spec := (twoDefinitions.rule? "dining").get (by decide +kernel)
  exact ⟨r, spec, (Option.some_get _).symm, (Option.some_get _).symm, by decide +kernel,
    by decide +kernel, by decide +kernel, by decide +kernel, by decide +kernel, by decide +kernel⟩

end RuleBook

end CardRewards
