import CardRewards.Calendar.Period
import CardRewards.Profile

/-!
# Allocation, missions, campaigns and tiers

The parts of a scheme around its rules: the buckets that weights may be put on, the missions that
spending is counted for, the campaigns that lend rules their period, and the tier program.

These are the `AllocationConfig`, `MissionDefinition`, `Campaign`, `TierLevel` and `TierProgram`
of a configuration.
-/

namespace CardRewards

/-- The weights that may be put on buckets, and the categories of each bucket. -/
structure Allocation where
  budget : UInt32
  buckets : BucketTable (List String)
deriving DecidableEq

namespace Allocation

/-- Nothing to put weights on. -/
def empty : Allocation := ⟨0, .empty⟩

instance : Inhabited Allocation := ⟨empty⟩

end Allocation

/-- A goal of spending. -/
structure Mission (α : Type) where
  id : String
  label : Option String
  targetSpend : Option α
  period : Option Period
deriving DecidableEq

/-- A promotion for some time. -/
structure Campaign where
  id : String
  label : Option String
  period : Period
  startsOn : Option Date
  endsOn : Option Date
  /-- The rules whose counters are set back with the campaign. -/
  ruleIds : List String
  /-- Further counters that are set back with it. -/
  keys : List String
deriving DecidableEq

/-- A row of a tier program. -/
structure TierLevel (α : Type) where
  level : UInt8
  rate : α
  /-- The rewards that may be granted on this level. -/
  cap : α
deriving DecidableEq

/-- A program in which the rate depends on the tier reached. -/
structure TierProgram (α : Type) where
  id : String
  maxLevel : UInt8
  levels : List (TierLevel α)
  /-- The category whose spending counts towards the next tier. -/
  privilegedCategory : String
  rewardUnit : Option String
  period : Option Period
deriving DecidableEq

namespace TierProgram

variable {α : Type}

/-- The row of a level; the first one if there are several. -/
def row? (p : TierProgram α) (level : UInt8) : Option (TierLevel α) :=
  p.levels.find? (·.level = level)

end TierProgram

end CardRewards
