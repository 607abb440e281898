import CardRewards.Ledger
import CardRewards.Scheme.RuleSpec

/-!
# Checked rules

A `Rule` is a specification that has been checked: its gates, and an effect in which every needed
number is there. A specification that fails a check becomes a rule as well. Its effect is the
defect that was found, and evaluation shows it with a rate of zero.

In the requirements (§2, component 7) a rule is a `CompiledRule` and its effect a `RuleBody`; a
defect is why the body is `Unsupported`. A cap is a `CapRule`.
-/

namespace CardRewards

/-- The fields of a specification that a defect can name. -/
inductive SpecField where
  | mode
  | rate
  | ratePerUnit
  | units
  | capLimit
  | capMode
  | secondaryCapLimit
  | minSpend
  | minSingleSpend
  | reqMissionSpend
deriving DecidableEq, Repr

namespace SpecField

/-- The name under which a field is written. -/
def name : SpecField → String
  | mode => "mode"
  | rate => "rate"
  | ratePerUnit => "rate_per_unit"
  | units => "units"
  | capLimit => "cap_limit"
  | capMode => "cap_mode"
  | secondaryCapLimit => "secondary_cap_limit"
  | minSpend => "min_spend"
  | minSingleSpend => "min_single_spend"
  | reqMissionSpend => "req_mission_spend"

end SpecField

/-- What keeps a rule from being evaluated. -/
inductive Defect (α : Type) where
  | unknownKind (text : String)
  | missing (field : SpecField)
  /-- An amount that is negative or not finite. -/
  | badAmount (field : SpecField) (amount : α)
  | badMode (field : SpecField) (text : String)
  /-- A cap with a limit and no key, or the other way round. -/
  | halfCap
  | halfSecondaryCap
  /-- A mission gate that names its counter in two ways. -/
  | twoMissionGates
  /-- A mission gate without a counter or without an amount. -/
  | halfMissionGate
  | observerWithoutMission
  /-- A counter that caps use in both modes. -/
  | sharedCapKey (key : String)
deriving DecidableEq

namespace Defect

variable {α : Type} [Amount α]

/-- The wording of a defect. -/
def message : Defect α → String
  | unknownKind text => "未知的规则类型: " ++ text
  | missing field => "缺少字段 " ++ field.name
  | badAmount field amount =>
    "字段 " ++ field.name ++ " 必须为非负有限数值，当前为 " ++ Amount.plain amount
  | badMode field text => "字段 " ++ field.name ++ " 取值无效: " ++ text
  | halfCap => "cap_limit 与 cap_key 必须同时配置"
  | halfSecondaryCap => "secondary_cap_limit 与 secondary_cap_key 必须同时配置"
  | twoMissionGates => "req_mission_id 与 req_mission_key 只能配置其一"
  | halfMissionGate => "任务门槛需同时配置 req_mission_spend 与 req_mission_id/req_mission_key"
  | observerWithoutMission => "任务观察规则缺少 mission_id"
  | sharedCapKey key => "封顶键 '" ++ key ++ "' 被多种封顶口径共用"

end Defect

/-- A counter and what it may reach. -/
structure Limit (α : Type) where
  key : CounterKey
  limit : α
deriving DecidableEq

/-- A cap on a rate. -/
structure Cap (α : Type) where
  key : CounterKey
  limit : α
  mode : CapMode
  /-- A second counter; it limits rewards and is not looked at in spending mode. -/
  secondary : Option (Limit α)
deriving DecidableEq

/-- A counter and what it has to reach before a rule applies. -/
structure MissionGate (α : Type) where
  key : CounterKey
  required : α
deriving DecidableEq

/-- What has to hold before a rule applies. -/
structure Gates (α : Type) where
  /-- The promotion that has to be signed up for. -/
  toggle : Option String
  minSpend : Option α
  minSingleSpend : Option α
  mission : Option (MissionGate α)
deriving DecidableEq

namespace Gates

variable {α : Type}

/-- Nothing has to hold. -/
def none : Gates α := ⟨Option.none, Option.none, Option.none, Option.none⟩

instance : Inhabited (Gates α) := ⟨none⟩

end Gates

/-- What a rule does. -/
inductive Effect (α : Type) where
  | flat (composition : Composition) (rate : α) (cap : Option (Cap α))
  | base (rate : α)
  | tiered
  | flexible (ratePerUnit : α)
  | fixedBonus (ratePerUnit units : α)
  | observer (mission : String)
  | unsupported (defect : Defect α)
deriving DecidableEq

/-- A rule that has been checked. -/
structure Rule (α : Type) where
  id : String
  label : String
  categories : List String
  gates : Gates α
  effect : Effect α
deriving DecidableEq

namespace Rule

variable {α : Type}

/-- The defect of a rule that cannot be evaluated. -/
def defect? (r : Rule α) : Option (Defect α) :=
  match r.effect with
  | .unsupported d => some d
  | _ => none

/-- Whether the rule can be evaluated. -/
def isSupported (r : Rule α) : Bool := r.defect?.isNone

/-- Whether the rule takes the place of the base rate. -/
def isReplacer (r : Rule α) : Bool :=
  match r.effect with
  | .flat .replace _ _ => true
  | _ => false

/-- The cap of a rule. -/
def cap? (r : Rule α) : Option (Cap α) :=
  match r.effect with
  | .flat _ _ cap => cap
  | _ => none

/-- The mission that a rule counts for. -/
def observed? (r : Rule α) : Option String :=
  match r.effect with
  | .observer mission => some mission
  | _ => none

end Rule

end CardRewards
