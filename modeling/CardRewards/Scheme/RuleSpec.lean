import CardRewards.Calendar.Period
import CardRewards.Scheme.Card

/-!
# Rules as they are written

A `RuleSpec` is a rule the way the people who run a scheme write it: one flat record whose fields
are mostly optional, with the kind and the modes as free text. Nothing is checked here; `Rule` is
what a specification comes to once it has been checked.

The names of kinds and modes are read without regard to white space around them and to case, and a
kind may be written with dashes for underscores.

In the requirements (§3) a specification is a `RuleDefinition`, and its composition the `mode`.
-/

namespace CardRewards

/-- What a rule does. -/
inductive RuleKind where
  /-- A rate for some categories, perhaps capped. -/
  | flatCategory
  /-- The base rate, unless another rule replaces it. -/
  | alwaysBase
  /-- A rate and a cap looked up by tier. -/
  | tieredCapped
  /-- A rate that grows with the weight the customer put on a bucket. -/
  | flexibleAllocation
  /-- A set number of units for any category in a bucket. -/
  | fixedBonusAllocation
  /-- No rate: spending is counted for a mission. -/
  | missionObserver
deriving DecidableEq, Repr

namespace RuleKind

/-- All kinds in order. -/
def all : List RuleKind :=
  [flatCategory, alwaysBase, tieredCapped, flexibleAllocation, fixedBonusAllocation,
    missionObserver]

/-- The name of a kind. -/
def name : RuleKind → String
  | flatCategory => "flat_category"
  | alwaysBase => "always_base"
  | tieredCapped => "tiered_capped"
  | flexibleAllocation => "flexible_allocation"
  | fixedBonusAllocation => "fixed_bonus_allocation"
  | missionObserver => "mission_observer"

/-- A text with underscores for dashes. -/
def underscored (s : String) : String :=
  String.ofList (s.toList.map fun c => if c = '-' then '_' else c)

/-- The kind that a text names. -/
def read? (s : String) : Option RuleKind :=
  let folded := underscored (Text.fold s)
  all.find? (·.name = folded)

end RuleKind

/-- How a rule goes together with the base rate. -/
inductive Composition where
  /-- The base rate does not apply beside it. -/
  | replace
  /-- The rates add up. -/
  | add
deriving DecidableEq, Repr

namespace Composition

/-- All ways in order. -/
def all : List Composition := [replace, add]

/-- The name of a way. -/
def name : Composition → String
  | replace => "replace"
  | add => "add"

/-- The way that a text names. -/
def read? (s : String) : Option Composition :=
  let folded := Text.fold s
  all.find? (·.name = folded)

instance : Inhabited Composition := ⟨add⟩

end Composition

/-- What a cap limits. -/
inductive CapMode where
  /-- The spending that earns the rate. -/
  | spending
  /-- The rewards granted. -/
  | reward
deriving DecidableEq, Repr

namespace CapMode

/-- All modes in order. -/
def all : List CapMode := [spending, reward]

/-- The name of a mode. -/
def name : CapMode → String
  | spending => "spending"
  | reward => "reward"

/-- The mode that a text names. -/
def read? (s : String) : Option CapMode :=
  let folded := Text.fold s
  all.find? (·.name = folded)

instance : Inhabited CapMode := ⟨spending⟩

end CapMode

/-- A rule as it is written in a scheme. -/
structure RuleSpec (α : Type) where
  id : String
  label : Option String
  kind : String
  categories : List String
  mode : Option String
  rate : Option α
  ratePerUnit : Option α
  units : Option α
  capLimit : Option α
  capKey : Option String
  capMode : Option String
  secondaryCapKey : Option String
  secondaryCapLimit : Option α
  minSpend : Option α
  minSingleSpend : Option α
  /-- The counter that a mission gate reads. -/
  reqMissionKey : Option String
  /-- The mission whose counting spend a mission gate reads. -/
  reqMissionId : Option String
  reqMissionSpend : Option α
  /-- The promotion that has to be signed up for. -/
  settingKey : Option String
  period : Option Period
  /-- The mission that an observer counts for. -/
  missionId : Option String
deriving DecidableEq

namespace RuleSpec

variable {α : Type}

/-- The rule of a kind with nothing else said. -/
def ofKind (id : String) (kind : RuleKind) : RuleSpec α :=
  ⟨id, none, kind.name, [], none, none, none, none, none, none, none, none, none, none, none, none,
    none, none, none, none, none⟩

/-- A rate for some categories. -/
def flat (id : String) (rate : α) (categories : List String) : RuleSpec α :=
  { ofKind id .flatCategory with rate := some rate, categories }

/-- A base rate. -/
def base (id : String) (rate : α) : RuleSpec α := { ofKind id .alwaysBase with rate := some rate }

/-- The same rule, taking the place of the base rate. -/
def replacing (s : RuleSpec α) : RuleSpec α := { s with mode := some Composition.replace.name }

/-- The same rule with a cap on a counter. -/
def capped (s : RuleSpec α) (mode : CapMode) (key : String) (limit : α) : RuleSpec α :=
  { s with capKey := some key, capLimit := some limit, capMode := some mode.name }

/-- The same rule with a second counter that limits its rewards. -/
def cappedAgain (s : RuleSpec α) (key : String) (limit : α) : RuleSpec α :=
  { s with secondaryCapKey := some key, secondaryCapLimit := some limit }

/-- The same rule, granting a rate for each of some units. -/
def perUnit (s : RuleSpec α) (rate : α) (units : Option α) : RuleSpec α :=
  { s with ratePerUnit := some rate, units }

/-- The same rule, locked until a counter has reached an amount. -/
def gatedByKey (s : RuleSpec α) (key : String) (required : α) : RuleSpec α :=
  { s with reqMissionKey := some key, reqMissionSpend := some required }

/-- The same rule, locked until enough has been spent that counts for a mission. -/
def gatedByMission (s : RuleSpec α) (mission : String) (required : α) : RuleSpec α :=
  { s with reqMissionId := some mission, reqMissionSpend := some required }

/-- The name shown for a rule: its label, or else its id. -/
def displayLabel (s : RuleSpec α) : String := s.label.getD s.id

end RuleSpec

end CardRewards
