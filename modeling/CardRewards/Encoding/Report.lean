import CardRewards.Audit
import CardRewards.Encoding.Quote
import CardRewards.Posting
import CardRewards.Schedule
import CardRewards.Tier

/-!
# Reports as documents

What is only ever written: receipts, moves between tiers, reset schedules and findings.
-/

namespace CardRewards

open Node (ofAmount ofNat ofTexts ofDict)

/-- A receipt as a document. -/
def Receipt.toNode (r : Receipt Binary64) : Node :=
  .map
    [("card_id", .text r.cardId), ("amount", ofAmount r.amount), ("value", ofAmount r.value),
      ("updated", .list (r.updated.map fun entry => .list [entry.1.toNode, ofAmount entry.2]))]

/-- A move to the next tier as a document. -/
def TierStep.toNode (s : TierStep) : Node :=
  .map
    [("previous_level", ofNat s.previousLevel.toNat), ("level", ofNat s.level.toNat),
      ("at_max", .bool s.wasAtTop)]

/-- What a counter belongs to, as a document. -/
def Provenance.toNode : Provenance → Node
  | rule id => .map [("source", .text "rule"), ("rule_id", .text id)]
  | mission id => .map [("source", .text "mission"), ("mission_id", .text id)]
  | campaign id => .map [("source", .text "campaign"), ("campaign_id", .text id)]
  | tier id => .map [("source", .text "tier"), ("program_id", .text id)]

/-- An entry of a schedule as a document. -/
def ScheduleEntry.toNode (e : ScheduleEntry) : Node :=
  .map
    [("period", .text e.period.kind.name), ("anchor", e.period.anchor.toNode),
      ("provenance", e.provenance.toNode), ("priority", .text e.priority.name)]

/-- A schedule as a document. -/
def Schedule.toNode (s : Schedule) : Node := ofDict ScheduleEntry.toNode s

/-- A finding as a document. -/
def Finding.toNode : Finding → Node
  | unsupportedRule ruleId reason =>
    .map
      [("finding", .text "unsupported_rule"), ("rule_id", .text ruleId), ("reason", .text reason)]
  | sharedCapKey key ruleIds =>
    .map [("finding", .text "shared_cap_key"), ("key", .text key), ("rule_ids", ofTexts ruleIds)]
  | unknownCategory ruleId category =>
    .map
      [("finding", .text "unknown_category"), ("rule_id", .text ruleId),
        ("category", .text category)]
  | danglingRuleRef cardId ruleId =>
    .map
      [("finding", .text "dangling_rule_ref"), ("card_id", .text cardId), ("rule_id", .text ruleId)]
  | missingConversion cardId currency =>
    .map
      [("finding", .text "missing_conversion"), ("card_id", .text cardId),
        ("currency", .text currency)]
  | tierLevelGap programId level =>
    .map
      [("finding", .text "tier_level_gap"), ("program_id", .text programId),
        ("level", ofNat level.toNat)]
  | undefinedMission ruleId missionId =>
    .map
      [("finding", .text "undefined_mission"), ("rule_id", .text ruleId),
        ("mission_id", .text missionId)]
  | ignoredSecondaryCap ruleId =>
    .map [("finding", .text "ignored_secondary_cap"), ("rule_id", .text ruleId)]
  | danglingCampaignRule campaignId ruleId =>
    .map
      [("finding", .text "dangling_campaign_rule"), ("campaign_id", .text campaignId),
        ("rule_id", .text ruleId)]

end CardRewards
