import CardRewards.Calendar.Date

/-!
# Reset periods

Counters are set back to zero by a scheduler outside the library. What it needs to know is a
period and the point the period is counted from.

In the requirements (§3) a period is the `PeriodSpec` of a registry entry, with its `PeriodType`
and its `AnchorRef`.
-/

namespace CardRewards

/-- How often a counter is set back. -/
inductive PeriodKind where
  | monthly
  | quarterly
  | yearly
  /-- For the duration of a campaign; nothing counts after it. -/
  | campaign
  /-- When the customer moves to the next tier. -/
  | tier
  /-- Never. -/
  | lifetime
deriving DecidableEq, Repr

namespace PeriodKind

/-- All kinds in order. -/
def all : List PeriodKind := [monthly, quarterly, yearly, campaign, tier, lifetime]

/-- The name of a kind. -/
def name : PeriodKind → String
  | monthly => "monthly"
  | quarterly => "quarterly"
  | yearly => "yearly"
  | campaign => "campaign"
  | tier => "tier"
  | lifetime => "lifetime"

/-- The kind of a name. -/
def ofName? (s : String) : Option PeriodKind := all.find? (·.name = s)

@[simp] theorem ofName?_name (k : PeriodKind) : ofName? k.name = some k := by cases k <;> rfl

end PeriodKind

/-- The point that periods are counted from. -/
inductive Anchor where
  /-- The first day of the month, quarter or year. -/
  | calendar
  /-- The statement day of the card. -/
  | statementDay (day : UInt8)
  /-- A fixed day. -/
  | date (date : Date)
deriving DecidableEq

/-- When a counter is set back to zero. -/
structure Period where
  kind : PeriodKind
  anchor : Anchor
deriving DecidableEq

namespace Period

/-- By calendar month. -/
def monthly : Period := ⟨.monthly, .calendar⟩

/-- On moving to the next tier. -/
def tier : Period := ⟨.tier, .calendar⟩

instance : Inhabited Period := ⟨monthly⟩

end Period

end CardRewards
