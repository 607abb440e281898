import CardRewards.Encoding.Profile
import CardRewards.Quote.Basic

/-!
# Quotes as documents

A quote travels to whoever shows it and comes back to be booked, so it is read as well as written.
-/

namespace CardRewards

open Node (ofAmount ofNat ofOption entryIfSome)

namespace LineStatus

/-- All statuses in order. -/
def all : List LineStatus := [active, partly, capped, locked, unsupported]

/-- The name of a status. -/
def name : LineStatus → String
  | active => "active"
  | partly => "partial"
  | capped => "capped"
  | locked => "locked"
  | unsupported => "unsupported"

/-- The status of a name. -/
def ofName? (s : String) : Option LineStatus := all.find? (·.name = s)

@[simp] theorem ofName?_name (s : LineStatus) : ofName? s.name = some s := by cases s <;> rfl

end LineStatus

namespace QuoteLine

/-- A line as a document. -/
def toNode (l : QuoteLine Binary64) : Node :=
  .map <|
    [("rule_id", .text l.ruleId), ("label", .text l.label), ("status", .text l.status.name),
      ("rate", ofAmount l.rate)] ++ entryIfSome "note" .text l.note

/-- Read a line. -/
def ofNode? (node : Node) : Option (QuoteLine Binary64) := do
  let r ← node.record? ["rule_id", "label", "status", "rate", "note"]
  let ruleId ← r.required "rule_id" Node.asText?
  let label ← r.required "label" Node.asText?
  let status ← r.required "status" (Node.asName? LineStatus.ofName?)
  let rate ← r.required "rate" Node.asAmount?
  let note ← r.optional "note" Node.asText?
  some ⟨ruleId, label, status, rate, note⟩

end QuoteLine

namespace CounterKey

/-- A key as a document. -/
def toNode (k : CounterKey) : Node := .text k.text

/-- Read a key. -/
def ofNode? (node : Node) : Option CounterKey := node.asText?.map mk

end CounterKey

namespace CapCharge

/-- A charge to caps as a document. -/
def toNode : CapCharge Binary64 → Node
  | none => .map [("type", .text "none")]
  | spending key => .map [("type", .text "spending_cap"), ("key", key.toNode)]
  | reward key secondary amount =>
    .map <| [("type", .text "reward_cap"), ("key", key.toNode)] ++
      entryIfSome "secondary" CounterKey.toNode secondary ++ [("amount", ofAmount amount)]

/-- Read the fields that belong to a tag. -/
def ofTag? (tag : String) (fields : Node) : Option (CapCharge Binary64) :=
  match tag with
  | "none" =>
    match fields with
    | .list (_ :: _) => Option.none
    | _ => some none
  | "spending_cap" => do
    let r ← fields.record? ["key"]
    let key ← r.required "key" CounterKey.ofNode?
    some (spending key)
  | "reward_cap" => do
    let r ← fields.record? ["key", "secondary", "amount"]
    let key ← r.required "key" CounterKey.ofNode?
    let secondary ← r.optional "secondary" CounterKey.ofNode?
    let amount ← r.required "amount" Node.asAmount?
    some (reward key secondary amount)
  | _ => Option.none

/-- Read a charge to caps. -/
def ofNode? (node : Node) : Option (CapCharge Binary64) := do
  let (tag, fields) ← node.tagged? "type"
  ofTag? tag fields

end CapCharge

namespace TierCharge

/-- A charge to a tier program as a document. -/
def toNode (t : TierCharge Binary64) : Node :=
  .map
    [("program_id", .text t.programId), ("generated_reward", ofAmount t.reward),
      ("qualifying_spend", .bool t.qualifies)]

/-- Read a charge to a tier program. -/
def ofNode? (node : Node) : Option (TierCharge Binary64) := do
  let r ← node.record? ["program_id", "generated_reward", "qualifying_spend"]
  let programId ← r.required "program_id" Node.asText?
  let reward ← r.required "generated_reward" Node.asAmount?
  let qualifies ← r.required "qualifying_spend" Node.asBool?
  some ⟨programId, reward, qualifies⟩

end TierCharge

namespace MissionTag

/-- A mission tag as a document. -/
def toNode (t : MissionTag) : Node :=
  .map [("mission_id", .text t.missionId), ("eligible", .bool t.eligible)]

/-- Read a mission tag. -/
def ofNode? (node : Node) : Option MissionTag := do
  let r ← node.record? ["mission_id", "eligible"]
  let missionId ← r.required "mission_id" Node.asText?
  let eligible ← r.required "eligible" Node.asBool?
  some ⟨missionId, eligible⟩

end MissionTag

namespace NoWorth

/-- A reason as a document. -/
def toNode : NoWorth → Node
  | missingConversion currency =>
    .map [("reason", .text "missing_conversion"), ("currency", .text currency)]
  | zeroConversion mode => .map [("reason", .text "zero_conversion"), ("mode", .text mode.name)]

/-- Read the fields that belong to a tag. -/
def ofTag? (tag : String) (fields : Node) : Option NoWorth :=
  match tag with
  | "missing_conversion" => do
    let r ← fields.record? ["currency"]
    let currency ← r.required "currency" Node.asText?
    some (missingConversion currency)
  | "zero_conversion" => do
    let r ← fields.record? ["mode"]
    let mode ← r.required "mode" (Node.asName? DisplayMode.ofName?)
    some (zeroConversion mode)
  | _ => none

/-- Read a reason. -/
def ofNode? (node : Node) : Option NoWorth := do
  let (tag, fields) ← node.tagged? "reason"
  ofTag? tag fields

end NoWorth

namespace Quote

/-- A quote as a document. -/
def toNode (q : Quote Binary64) : Node :=
  .map
    [("card_id", .text q.cardId), ("card_name", .text q.cardName), ("amount", ofAmount q.amount),
      ("raw_category", .text q.rawCategory), ("category", .text q.category),
      ("currency", .text q.currency), ("total_rate", ofAmount q.totalRate),
      ("native_value", ofAmount q.nativeValue), ("cash_value", ofAmount q.cashValue),
      ("miles_value", ofAmount q.milesValue), ("display_mode", .text q.displayMode.name),
      ("display_value", ofAmount q.displayValue),
      ("breakdown", .list (q.lines.map QuoteLine.toNode)),
      ("cap_tracking", q.capCharge.toNode),
      ("tier_tracking", ofOption TierCharge.toNode q.tierCharge),
      ("mission_tags", .list (q.missionTags.map MissionTag.toNode)),
      ("replacer", ofOption .text q.replacer), ("unsupported", ofOption NoWorth.toNode q.noWorth),
      ("conversion", ofOption Conversion.toNode q.conversion)]

/-- Read a quote. -/
def ofNode? (node : Node) : Option (Quote Binary64) := do
  let r ← node.record?
    ["card_id", "card_name", "amount", "raw_category", "category", "currency", "total_rate",
      "native_value", "cash_value", "miles_value", "display_mode", "display_value", "breakdown",
      "cap_tracking", "tier_tracking", "mission_tags", "replacer", "unsupported", "conversion"]
  let cardId ← r.required "card_id" Node.asText?
  let cardName ← r.required "card_name" Node.asText?
  let amount ← r.required "amount" Node.asAmount?
  let rawCategory ← r.required "raw_category" Node.asText?
  let category ← r.required "category" Node.asText?
  let currency ← r.required "currency" Node.asText?
  let totalRate ← r.required "total_rate" Node.asAmount?
  let nativeValue ← r.required "native_value" Node.asAmount?
  let cashValue ← r.required "cash_value" Node.asAmount?
  let milesValue ← r.required "miles_value" Node.asAmount?
  let displayMode ← r.required "display_mode" (Node.asName? DisplayMode.ofName?)
  let displayValue ← r.required "display_value" Node.asAmount?
  let lines ← r.required "breakdown" (Node.asList? QuoteLine.ofNode?)
  let capCharge ← r.orElse "cap_tracking" .none CapCharge.ofNode?
  let tierCharge ← r.optional "tier_tracking" TierCharge.ofNode?
  let missionTags ← r.orElse "mission_tags" [] (Node.asList? MissionTag.ofNode?)
  let replacer ← r.optional "replacer" Node.asText?
  let noWorth ← r.optional "unsupported" NoWorth.ofNode?
  let conversion ← r.optional "conversion" Conversion.ofNode?
  some
    { cardId, cardName, amount, rawCategory, category, currency, totalRate, nativeValue, cashValue,
      milesValue, displayMode, displayValue, lines, capCharge, tierCharge, missionTags, replacer,
      noWorth, conversion }

end Quote

end CardRewards
