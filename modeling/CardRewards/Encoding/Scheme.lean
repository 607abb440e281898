import CardRewards.Document.Record
import CardRewards.Scheme.Basic

/-!
# Schemes as documents

For each record of a scheme the fields it has in a document, in their order, and how they are read
back. What is written can always be read; what can be read may say less, since most fields have a
default.
-/

namespace CardRewards

open Node (ofAmount ofNat ofOption ofTexts ofDict entryIfSome asTexts?)

namespace Date

/-- A date as a document. -/
def toNode (d : Date) : Node := .text d.text

/-- Read a date. -/
def ofNode? (node : Node) : Option Date := node.asText?.bind read?

end Date

namespace Anchor

/-- An anchor as a document. -/
def toNode : Anchor → Node
  | calendar => .map [("type", .text "calendar")]
  | statementDay day => .map [("type", .text "statement_day"), ("day", ofNat day.toNat)]
  | date d => .map [("type", .text "date"), ("date", d.toNode)]

/-- Read the fields that belong to a tag. -/
def ofTag? (tag : String) (fields : Node) : Option Anchor :=
  match tag with
  | "calendar" =>
    match fields with
    | .list (_ :: _) => none
    | _ => some calendar
  | "statement_day" => do
    let r ← fields.record? ["day"]
    let day ← r.required "day" Node.asUInt8?
    some (statementDay day)
  | "date" => do
    let r ← fields.record? ["date"]
    let d ← r.required "date" Date.ofNode?
    some (date d)
  | _ => none

/-- Read an anchor. -/
def ofNode? (node : Node) : Option Anchor := do
  let (tag, fields) ← node.tagged? "type"
  ofTag? tag fields

end Anchor

namespace Period

/-- A period as a document. -/
def toNode (p : Period) : Node :=
  .map [("period", .text p.kind.name), ("anchor", p.anchor.toNode)]

/-- Read a period. -/
def ofNode? (node : Node) : Option Period := do
  let r ← node.record? ["period", "anchor"]
  let kind ← r.required "period" (Node.asName? PeriodKind.ofName?)
  let anchor ← r.orElse "anchor" .calendar Anchor.ofNode?
  some ⟨kind, anchor⟩

end Period

namespace Redemption

/-- A redemption as a document. -/
def toNode (r : Redemption) : Node :=
  .map (("unit_label", .text r.unitLabel) :: entryIfSome "note" .text r.note)

/-- Read a redemption. -/
def ofNode? (node : Node) : Option Redemption := do
  let r ← node.record? ["unit_label", "note"]
  let unitLabel ← r.required "unit_label" Node.asText?
  let note ← r.optional "note" Node.asText?
  some ⟨unitLabel, note⟩

end Redemption

namespace Card

/-- A card as a document. -/
def toNode (c : Card) : Node :=
  .map
    [("id", .text c.id), ("name", .text c.name), ("currency", .text c.currency),
      ("rules", ofTexts c.rules), ("redemption", c.redemption.toNode), ("owned", .bool c.owned)]

/-- Read a card. -/
def ofNode? (node : Node) : Option Card := do
  let r ← node.record? ["id", "name", "currency", "rules", "redemption", "owned"]
  let id ← r.required "id" Node.asText?
  let name ← r.required "name" Node.asText?
  let currency ← r.required "currency" Node.asText?
  let rules ← r.orElse "rules" [] asTexts?
  let redemption ← r.orElse "redemption" .none Redemption.ofNode?
  let owned ← r.orElse "owned" false Node.asBool?
  some ⟨id, name, currency, rules, redemption, owned⟩

end Card

namespace Conversion

/-- A conversion as a document. -/
def toNode (c : Conversion Binary64) : Node :=
  .map [("cash_per_unit", ofAmount c.cashPerUnit), ("miles_per_unit", ofAmount c.milesPerUnit)]

/-- Read a conversion. -/
def ofNode? (node : Node) : Option (Conversion Binary64) := do
  let r ← node.record? ["cash_per_unit", "miles_per_unit"]
  let cashPerUnit ← r.orElse "cash_per_unit" 0 Node.asAmount?
  let milesPerUnit ← r.orElse "miles_per_unit" 0 Node.asAmount?
  some ⟨cashPerUnit, milesPerUnit⟩

end Conversion

namespace RuleSpec

/-- The fields of a rule in their order. -/
def fieldNames : List String :=
  ["id", "label", "kind", "categories", "mode", "rate", "rate_per_unit", "units", "cap_limit",
    "cap_key", "cap_mode", "secondary_cap_key", "secondary_cap_limit", "min_spend",
    "min_single_spend", "req_mission_key", "req_mission_id", "req_mission_spend", "setting_key",
    "period", "mission_id"]

/-- A rule as a document. -/
def toNode (s : RuleSpec Binary64) : Node :=
  .map <| ("id", .text s.id) :: entryIfSome "label" .text s.label ++
    [("kind", .text s.kind), ("categories", ofTexts s.categories),
      ("mode", ofOption .text s.mode), ("rate", ofOption ofAmount s.rate),
      ("rate_per_unit", ofOption ofAmount s.ratePerUnit), ("units", ofOption ofAmount s.units),
      ("cap_limit", ofOption ofAmount s.capLimit), ("cap_key", ofOption .text s.capKey),
      ("cap_mode", ofOption .text s.capMode),
      ("secondary_cap_key", ofOption .text s.secondaryCapKey),
      ("secondary_cap_limit", ofOption ofAmount s.secondaryCapLimit),
      ("min_spend", ofOption ofAmount s.minSpend),
      ("min_single_spend", ofOption ofAmount s.minSingleSpend),
      ("req_mission_key", ofOption .text s.reqMissionKey),
      ("req_mission_id", ofOption .text s.reqMissionId),
      ("req_mission_spend", ofOption ofAmount s.reqMissionSpend),
      ("setting_key", ofOption .text s.settingKey), ("period", ofOption Period.toNode s.period),
      ("mission_id", ofOption .text s.missionId)]

/-- Read a rule. -/
def ofNode? (node : Node) : Option (RuleSpec Binary64) := do
  let r ← node.record? fieldNames
  let id ← r.required "id" Node.asText?
  let label ← r.optional "label" Node.asText?
  let kind ← r.required "kind" Node.asText?
  let categories ← r.orElse "categories" [] asTexts?
  let mode ← r.nullable "mode" Node.asText?
  let rate ← r.nullable "rate" Node.asAmount?
  let ratePerUnit ← r.nullable "rate_per_unit" Node.asAmount?
  let units ← r.nullable "units" Node.asAmount?
  let capLimit ← r.nullable "cap_limit" Node.asAmount?
  let capKey ← r.nullable "cap_key" Node.asText?
  let capMode ← r.nullable "cap_mode" Node.asText?
  let secondaryCapKey ← r.nullable "secondary_cap_key" Node.asText?
  let secondaryCapLimit ← r.nullable "secondary_cap_limit" Node.asAmount?
  let minSpend ← r.nullable "min_spend" Node.asAmount?
  let minSingleSpend ← r.nullable "min_single_spend" Node.asAmount?
  let reqMissionKey ← r.nullable "req_mission_key" Node.asText?
  let reqMissionId ← r.nullable "req_mission_id" Node.asText?
  let reqMissionSpend ← r.nullable "req_mission_spend" Node.asAmount?
  let settingKey ← r.nullable "setting_key" Node.asText?
  let period ← r.nullable "period" Period.ofNode?
  let missionId ← r.nullable "mission_id" Node.asText?
  some
    { id, label, kind, categories, mode, rate, ratePerUnit, units, capLimit, capKey, capMode,
      secondaryCapKey, secondaryCapLimit, minSpend, minSingleSpend, reqMissionKey, reqMissionId,
      reqMissionSpend, settingKey, period, missionId }

end RuleSpec

namespace Hierarchy

/-- A hierarchy as a document. -/
def toNode (h : Hierarchy) : Node :=
  .map [("parents", ofDict ofTexts h.parents), ("transitive", .bool h.transitive)]

/-- Read a hierarchy. -/
def ofNode? (node : Node) : Option Hierarchy := do
  let r ← node.record? ["parents", "transitive"]
  let parents ← r.orElse "parents" .empty (Node.asDict? asTexts?)
  let transitive ← r.orElse "transitive" false Node.asBool?
  some ⟨parents, transitive⟩

end Hierarchy

namespace PreferenceOption

/-- An option as a document. -/
def toNode (o : PreferenceOption) : Node :=
  .map [("categories", ofTexts o.categories), ("effective", .text o.effective)]

/-- Read an option. -/
def ofNode? (node : Node) : Option PreferenceOption := do
  let r ← node.record? ["categories", "effective"]
  let categories ← r.required "categories" asTexts?
  let effective ← r.required "effective" Node.asText?
  some ⟨categories, effective⟩

end PreferenceOption

namespace PreferenceGroup

/-- A product line as a document. -/
def toNode (g : PreferenceGroup) : Node :=
  .map
    [("product_line", .text g.productLine), ("card_ids", ofTexts g.cardIds),
      ("options", ofDict PreferenceOption.toNode g.options)]

/-- Read a product line. -/
def ofNode? (node : Node) : Option PreferenceGroup := do
  let r ← node.record? ["product_line", "card_ids", "options"]
  let productLine ← r.required "product_line" Node.asText?
  let cardIds ← r.required "card_ids" asTexts?
  let options ← r.required "options" (Node.asDict? PreferenceOption.ofNode?)
  some ⟨productLine, cardIds, options⟩

end PreferenceGroup

namespace ResolverTables

/-- The tables as a document. -/
def toNode (t : ResolverTables) : Node :=
  .map
    [("card_overrides", ofDict (ofDict .text) t.cardOverrides),
      ("preferences", .list (t.preferences.map PreferenceGroup.toNode)),
      ("aliases", ofDict .text t.aliases)]

/-- Read the tables. -/
def ofNode? (node : Node) : Option ResolverTables := do
  let r ← node.record? ["card_overrides", "preferences", "aliases"]
  let cardOverrides ← r.orElse "card_overrides" .empty (Node.asDict? (Node.asDict? Node.asText?))
  let preferences ← r.orElse "preferences" [] (Node.asList? PreferenceGroup.ofNode?)
  let aliases ← r.orElse "aliases" .empty (Node.asDict? Node.asText?)
  some ⟨cardOverrides, preferences, aliases⟩

end ResolverTables

namespace BucketTable

variable {V : Type}

/-- A table on buckets as a document. -/
def toNode (write : V → Node) (t : BucketTable V) : Node :=
  .map (t.toList.map fun entry => (entry.1.name, write entry.2))

/-- Read a table on buckets. -/
def ofNode? (read : Node → Option V) (node : Node) : Option (BucketTable V) := do
  let entries ← node.entries?
  let entries ← entries.mapM fun entry => do
    let bucket ← Bucket.ofName? entry.1
    let value ← read entry.2
    some (bucket, value)
  some (ofList entries)

end BucketTable

namespace Allocation

/-- An allocation as a document. -/
def toNode (a : Allocation) : Node :=
  .map [("budget", ofNat a.budget.toNat), ("buckets", a.buckets.toNode ofTexts)]

/-- Read an allocation. -/
def ofNode? (node : Node) : Option Allocation := do
  let r ← node.record? ["budget", "buckets"]
  let budget ← r.orElse "budget" 0 Node.asUInt32?
  let buckets ← r.orElse "buckets" .empty (BucketTable.ofNode? asTexts?)
  some ⟨budget, buckets⟩

end Allocation

namespace Mission

/-- A mission as a document. -/
def toNode (m : Mission Binary64) : Node :=
  .map
    [("id", .text m.id), ("label", ofOption .text m.label),
      ("target_spend", ofOption ofAmount m.targetSpend), ("period", ofOption Period.toNode m.period)]

/-- Read a mission. -/
def ofNode? (node : Node) : Option (Mission Binary64) := do
  let r ← node.record? ["id", "label", "target_spend", "period"]
  let id ← r.required "id" Node.asText?
  let label ← r.optional "label" Node.asText?
  let targetSpend ← r.optional "target_spend" Node.asAmount?
  let period ← r.optional "period" Period.ofNode?
  some ⟨id, label, targetSpend, period⟩

end Mission

namespace Campaign

/-- A campaign as a document. -/
def toNode (c : Campaign) : Node :=
  .map
    [("id", .text c.id), ("label", ofOption .text c.label), ("period", c.period.toNode),
      ("starts_on", ofOption Date.toNode c.startsOn), ("ends_on", ofOption Date.toNode c.endsOn),
      ("rule_ids", ofTexts c.ruleIds), ("keys", ofTexts c.keys)]

/-- Read a campaign. -/
def ofNode? (node : Node) : Option Campaign := do
  let r ← node.record? ["id", "label", "period", "starts_on", "ends_on", "rule_ids", "keys"]
  let id ← r.required "id" Node.asText?
  let label ← r.optional "label" Node.asText?
  let period ← r.required "period" Period.ofNode?
  let startsOn ← r.optional "starts_on" Date.ofNode?
  let endsOn ← r.optional "ends_on" Date.ofNode?
  let ruleIds ← r.orElse "rule_ids" [] asTexts?
  let keys ← r.orElse "keys" [] asTexts?
  some ⟨id, label, period, startsOn, endsOn, ruleIds, keys⟩

end Campaign

namespace TierLevel

/-- A row of a tier program as a document. -/
def toNode (l : TierLevel Binary64) : Node :=
  .map [("level", ofNat l.level.toNat), ("rate", ofAmount l.rate), ("cap", ofAmount l.cap)]

/-- Read a row of a tier program. -/
def ofNode? (node : Node) : Option (TierLevel Binary64) := do
  let r ← node.record? ["level", "rate", "cap"]
  let level ← r.required "level" Node.asUInt8?
  let rate ← r.required "rate" Node.asAmount?
  let cap ← r.required "cap" Node.asAmount?
  some ⟨level, rate, cap⟩

end TierLevel

namespace TierProgram

/-- A tier program as a document. -/
def toNode (p : TierProgram Binary64) : Node :=
  .map
    [("id", .text p.id), ("max_level", ofNat p.maxLevel.toNat),
      ("levels", .list (p.levels.map TierLevel.toNode)),
      ("privileged_category", .text p.privilegedCategory),
      ("reward_unit", ofOption .text p.rewardUnit), ("period", ofOption Period.toNode p.period)]

/-- Read a tier program. -/
def ofNode? (node : Node) : Option (TierProgram Binary64) := do
  let r ← node.record?
    ["id", "max_level", "levels", "privileged_category", "reward_unit", "period"]
  let id ← r.required "id" Node.asText?
  let maxLevel ← r.required "max_level" Node.asUInt8?
  let levels ← r.required "levels" (Node.asList? TierLevel.ofNode?)
  let privilegedCategory ← r.required "privileged_category" Node.asText?
  let rewardUnit ← r.optional "reward_unit" Node.asText?
  let period ← r.optional "period" Period.ofNode?
  some ⟨id, maxLevel, levels, privilegedCategory, rewardUnit, period⟩

end TierProgram

namespace Scheme

/-- A scheme as a document. -/
def toNode (s : Scheme Binary64) : Node :=
  .map
    [("cards", .list (s.cards.map Card.toNode)), ("rules", .list (s.rules.map RuleSpec.toNode)),
      ("categories", ofTexts s.categories), ("hierarchy", s.hierarchy.toNode),
      ("resolver", s.resolver.toNode), ("conversions", ofDict Conversion.toNode s.conversions),
      ("allocation", s.allocation.toNode), ("missions", .list (s.missions.map Mission.toNode)),
      ("campaigns", .list (s.campaigns.map Campaign.toNode)),
      ("tier_program", ofOption TierProgram.toNode s.tierProgram),
      ("default_period", s.defaultPeriod.toNode)]

/-- Read a scheme. -/
def ofNode? (node : Node) : Option (Scheme Binary64) := do
  let r ← node.record?
    ["cards", "rules", "categories", "hierarchy", "resolver", "conversions", "allocation",
      "missions", "campaigns", "tier_program", "default_period"]
  let cards ← r.orElse "cards" [] (Node.asList? Card.ofNode?)
  let rules ← r.orElse "rules" [] (Node.asList? RuleSpec.ofNode?)
  let categories ← r.orElse "categories" [] asTexts?
  let hierarchy ← r.orElse "hierarchy" .empty Hierarchy.ofNode?
  let resolver ← r.orElse "resolver" .empty ResolverTables.ofNode?
  let conversions ← r.orElse "conversions" .empty (Node.asDict? Conversion.ofNode?)
  let allocation ← r.orElse "allocation" .empty Allocation.ofNode?
  let missions ← r.orElse "missions" [] (Node.asList? Mission.ofNode?)
  let campaigns ← r.orElse "campaigns" [] (Node.asList? Campaign.ofNode?)
  let tierProgram ← r.optional "tier_program" TierProgram.ofNode?
  let defaultPeriod ← r.orElse "default_period" .monthly Period.ofNode?
  some
    { cards, rules, categories, hierarchy, resolver, conversions, allocation, missions, campaigns,
      tierProgram, defaultPeriod }

end Scheme

end CardRewards
