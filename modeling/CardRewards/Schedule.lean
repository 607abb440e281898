import CardRewards.Scheme.Basic

/-!
# The reset schedule

For every counter of a scheme the schedule says when it is set back to zero, and by what in the
scheme. The scheme is walked once and registers counters as it goes (`Scheme.registrations`): the
rules first, card by card, then the missions, the campaigns and the tier program. Where a counter is
registered more than once, the registration of highest priority holds, and of several with that
priority the earliest. A period given for the counter itself goes before the period of a campaign,
and that before a default.

In the requirements (§4.5) the schedule is the counter registry, `build_registry` of a
configuration. An entry is a `RegistryEntry`, a priority a `RegistryPriority`; `Schedule.register`
is the `register` of the registry's builder, `RuleSpec.namedKeys` its `rule_keys`, and
`Scheme.registrations` the walk of its `build`.
-/

namespace CardRewards

/-- Where the period of a counter comes from. -/
inductive Priority where
  /-- From a default. -/
  | fallback
  /-- From a campaign. -/
  | promotion
  /-- From the rule, mission or program itself. -/
  | explicit
deriving DecidableEq, Repr

namespace Priority

/-- The height of a priority. -/
def height : Priority → Nat
  | fallback => 0
  | promotion => 1
  | explicit => 2

/-- The name of a priority. -/
def name : Priority → String
  | fallback => "fallback"
  | promotion => "promotion"
  | explicit => "explicit"

end Priority

/-- What in a scheme a counter belongs to. -/
inductive Provenance where
  | rule (id : String)
  | mission (id : String)
  | campaign (id : String)
  | tier (id : String)
deriving DecidableEq, Repr

/-- When a counter is set back, by what, and on whose word. -/
structure ScheduleEntry where
  period : Period
  provenance : Provenance
  priority : Priority
deriving DecidableEq

/-- An entry for a counter. -/
structure Registration where
  key : CounterKey
  entry : ScheduleEntry
deriving DecidableEq

/-- When each counter is set back. -/
abbrev Schedule := Dict ScheduleEntry

namespace Schedule

/-- Take a registration into account: it holds if the counter is new, or if its priority is higher
than the one that held before. -/
def register (s : Schedule) (r : Registration) : Schedule :=
  match s.get? r.key.text with
  | some held =>
    if held.priority.height < r.entry.priority.height then s.insert r.key.text r.entry else s
  | none => s.insert r.key.text r.entry

end Schedule

namespace RuleSpec

variable {α : Type}

/-- The counters that a rule names: of its caps and of its mission gate. -/
def namedKeys (s : RuleSpec α) : List CounterKey :=
  ([s.capKey, s.secondaryCapKey, s.reqMissionKey].filterMap fun key =>
      (key.bind Text.nonempty?).map .configured) ++
    ((s.reqMissionId.bind Text.nonempty?).map .missionEligible).toList

end RuleSpec

namespace Scheme

variable {α : Type}

/-- A period that may be given, or else a default. -/
def periodOr (default : Period) : Option Period → Period × Priority
  | some period => (period, .explicit)
  | none => (default, .fallback)

/-- Register some counters alike. -/
def registerAll (keys : List CounterKey) (period : Period × Priority) (provenance : Provenance) :
    List Registration :=
  keys.map fun key => ⟨key, period.1, provenance, period.2⟩

/-- The two counters of a mission. -/
def missionKeys (mission : String) : List CounterKey :=
  [.missionTotal mission, .missionEligible mission]

/-- The registrations of a rule: the counters it names, then those of the mission it counts for. -/
def ruleRegistrations (s : Scheme α) (rule : RuleSpec α) : List Registration :=
  registerAll rule.namedKeys (periodOr s.defaultPeriod rule.period) (.rule rule.id) ++
    match rule.missionId with
    | some mission =>
      registerAll (missionKeys mission) (s.defaultPeriod, .fallback) (.rule rule.id)
    | none => []

/-- The first of the rules with each id. -/
def firstById : (seen : List String) → List (RuleSpec α) → List (RuleSpec α)
  | _, [] => []
  | seen, r :: rest =>
    if seen.contains r.id then firstById seen rest else r :: firstById (r.id :: seen) rest

/-- The rules in the order in which they are registered: by card, then those on no card. -/
def ruleOrder (s : Scheme α) : List (RuleSpec α) :=
  firstById [] ((s.cards.flatMap (·.rules)).filterMap s.rule? ++ s.rules)

/-- The registrations of a mission. -/
def missionRegistrations (s : Scheme α) (m : Mission α) : List Registration :=
  registerAll (missionKeys m.id) (periodOr s.defaultPeriod m.period) (.mission m.id)

/-- The registrations of a campaign: the counters its rules name, then its own. -/
def campaignRegistrations (s : Scheme α) (c : Campaign) : List Registration :=
  registerAll
    ((c.ruleIds.filterMap s.rule?).flatMap (·.namedKeys) ++ c.keys.map .configured)
    (c.period, .promotion) (.campaign c.id)

/-- The registrations of a tier program. -/
def tierRegistrations (p : TierProgram α) : List Registration :=
  registerAll [.tierReward p.id, .tierSpend p.id] (periodOr .tier p.period) (.tier p.id)

/-- All registrations of a scheme, in order. -/
def registrations (s : Scheme α) : List Registration :=
  s.ruleOrder.flatMap s.ruleRegistrations ++ s.missions.flatMap s.missionRegistrations ++
    s.campaigns.flatMap s.campaignRegistrations ++
      s.tierProgram.toList.flatMap tierRegistrations

/-- The reset schedule of a scheme. -/
def schedule (s : Scheme α) : Schedule := s.registrations.foldl Schedule.register .empty

end Scheme

end CardRewards
