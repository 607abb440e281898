import CardRewards.Rule.Basic

/-!
# Checking a specification

`Rule.ofSpec` checks a specification field by field and stops at the first defect: the gates come
first, then what the kind needs. A defect in the gates leaves the rule without gates; one found
later leaves them in place. Id, label and categories are always those of the specification.

An empty text counts as absent in keys and ids, and a blank one in modes.

In the requirements (§2, component 7) this is `compile` of the rule compiler.
-/

namespace CardRewards

namespace RuleSpec

variable {α : Type} [Amount α]

/-- An amount that may be absent, and otherwise is finite and not negative. -/
def optionalAmount (field : SpecField) (value : Option α) : Except (Defect α) (Option α) :=
  match value with
  | none => .ok none
  | some v => if !Amount.isFinite v || v < 0 then .error (.badAmount field v) else .ok (some v)

/-- An amount that has to be there. -/
def requiredAmount (field : SpecField) (value : Option α) : Except (Defect α) α := do
  match ← optionalAmount field value with
  | some v => .ok v
  | none => .error (.missing field)

/-- A mode that may be absent or blank, and otherwise has to be known. -/
def modeOr {M : Type} (field : SpecField) (default : M) (read? : String → Option M)
    (value : Option String) : Except (Defect α) M :=
  match (value.map Text.trim).bind Text.nonempty? with
  | none => .ok default
  | some text =>
    match read? text with
    | some mode => .ok mode
    | none => .error (.badMode field text)

/-- The cap of a flat rule: limit and key together or neither, and so for the secondary ones. -/
def checkCap (s : RuleSpec α) : Except (Defect α) (Option (Cap α)) := do
  match ← optionalAmount .capLimit s.capLimit, s.capKey.bind Text.nonempty? with
  | none, none => .ok none
  | some limit, some key =>
    let secondaryLimit ← optionalAmount .secondaryCapLimit s.secondaryCapLimit
    let secondary ← match secondaryLimit, s.secondaryCapKey.bind Text.nonempty? with
      | none, none => .ok none
      | some limit, some key => .ok (some ⟨.configured key, limit⟩)
      | _, _ => .error .halfSecondaryCap
    let mode ← modeOr .capMode CapMode.spending CapMode.read? s.capMode
    .ok (some ⟨.configured key, limit, mode, secondary⟩)
  | _, _ => .error .halfCap

/-- The counter that a mission gate reads, if one is named. -/
def gateKey (s : RuleSpec α) : Except (Defect α) (Option CounterKey) :=
  match s.reqMissionId.bind Text.nonempty?, s.reqMissionKey.bind Text.nonempty? with
  | some _, some _ => .error .twoMissionGates
  | some mission, none => .ok (some (.missionEligible mission))
  | none, some key => .ok (some (.configured key))
  | none, none => .ok none

/-- The gates of a rule. -/
def checkGates (s : RuleSpec α) : Except (Defect α) (Gates α) := do
  let key ← s.gateKey
  let required ← optionalAmount .reqMissionSpend s.reqMissionSpend
  let mission ← match key, required with
    | none, none => .ok none
    | some key, some required => .ok (some ⟨key, required⟩)
    | _, _ => .error .halfMissionGate
  let minSpend ← optionalAmount .minSpend s.minSpend
  let minSingleSpend ← optionalAmount .minSingleSpend s.minSingleSpend
  .ok ⟨s.settingKey.bind Text.nonempty?, minSpend, minSingleSpend, mission⟩

/-- What a rule of this kind does. -/
def checkKind (s : RuleSpec α) : RuleKind → Except (Defect α) (Effect α)
  | .flatCategory => do
    let composition ← modeOr .mode Composition.add Composition.read? s.mode
    let rate ← requiredAmount .rate s.rate
    let cap ← s.checkCap
    .ok (.flat composition rate cap)
  | .alwaysBase => do
    let rate ← requiredAmount .rate s.rate
    .ok (.base rate)
  | .tieredCapped => .ok .tiered
  | .flexibleAllocation => do
    let ratePerUnit ← requiredAmount .ratePerUnit s.ratePerUnit
    .ok (.flexible ratePerUnit)
  | .fixedBonusAllocation => do
    let ratePerUnit ← requiredAmount .ratePerUnit s.ratePerUnit
    let units ← optionalAmount .units s.units
    .ok (.fixedBonus ratePerUnit (units.getD 1))
  | .missionObserver =>
    match s.missionId.bind Text.nonempty? with
    | some mission => .ok (.observer mission)
    | none => .error .observerWithoutMission

/-- What a rule does. -/
def checkEffect (s : RuleSpec α) : Except (Defect α) (Effect α) :=
  match RuleKind.read? s.kind with
  | some kind => s.checkKind kind
  | none => .error (.unknownKind s.kind)

end RuleSpec

namespace Rule

variable {α : Type} [Amount α]

/-- The rule that a specification comes to. -/
def ofSpec (s : RuleSpec α) : Rule α :=
  match s.checkGates with
  | .error defect => ⟨s.id, s.displayLabel, s.categories, .none, .unsupported defect⟩
  | .ok gates =>
    match s.checkEffect with
    | .error defect => ⟨s.id, s.displayLabel, s.categories, gates, .unsupported defect⟩
    | .ok effect => ⟨s.id, s.displayLabel, s.categories, gates, effect⟩

@[simp] theorem id_ofSpec (s : RuleSpec α) : (ofSpec s).id = s.id := by
  unfold ofSpec
  split
  · rfl
  · split <;> rfl

@[simp] theorem label_ofSpec (s : RuleSpec α) : (ofSpec s).label = s.displayLabel := by
  unfold ofSpec
  split
  · rfl
  · split <;> rfl

@[simp] theorem categories_ofSpec (s : RuleSpec α) : (ofSpec s).categories = s.categories := by
  unfold ofSpec
  split
  · rfl
  · split <;> rfl

end Rule

end CardRewards
