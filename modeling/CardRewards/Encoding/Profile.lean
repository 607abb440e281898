import CardRewards.Encoding.Scheme

/-!
# Profiles as documents

A profile is stored as one document. Every field has a default, so a profile may be stored before
a field of it is known. Amounts that are not finite are written as null, which does not read back.
-/

namespace CardRewards

open Node (ofAmount ofNat ofDict)

namespace Settings

/-- Settings as a document. -/
def toNode (s : Settings) : Node :=
  .map
    [("toggles", ofDict .bool s.toggles),
      ("allocation", s.allocation.toNode fun weight => ofNat weight.toNat),
      ("tier_level", ofNat s.tierLevel.toNat), ("preferences", ofDict .text s.preferences)]

/-- Read settings. -/
def ofNode? (node : Node) : Option Settings := do
  let r ← node.record? ["toggles", "allocation", "tier_level", "preferences"]
  let toggles ← r.orElse "toggles" .empty (Node.asDict? Node.asBool?)
  let allocation ← r.orElse "allocation" .empty (BucketTable.ofNode? Node.asUInt32?)
  let tierLevel ← r.orElse "tier_level" 0 Node.asUInt8?
  let preferences ← r.orElse "preferences" .empty (Node.asDict? Node.asText?)
  some ⟨toggles, allocation, tierLevel, preferences⟩

end Settings

namespace Ledger

/-- A ledger as a document. -/
def toNode (l : Ledger Binary64) : Node := ofDict ofAmount l.counters

/-- Read a ledger. -/
def ofNode? (node : Node) : Option (Ledger Binary64) :=
  (node.asDict? Node.asAmount?).map Ledger.mk

end Ledger

namespace Totals

/-- Totals as a document. -/
def toNode (t : Totals Binary64) : Node :=
  .map
    [("total_spend", ofAmount t.spend), ("total_value", ofAmount t.value),
      ("transaction_count", ofNat t.count.toNat)]

/-- Read totals. -/
def ofNode? (node : Node) : Option (Totals Binary64) := do
  let r ← node.record? ["total_spend", "total_value", "transaction_count"]
  let spend ← r.orElse "total_spend" 0 Node.asAmount?
  let value ← r.orElse "total_value" 0 Node.asAmount?
  let count ← r.orElse "transaction_count" 0 Node.asUInt64?
  some ⟨spend, value, count⟩

end Totals

namespace Profile

/-- A profile as a document. -/
def toNode (p : Profile Binary64) : Node :=
  .map
    [("settings", p.settings.toNode), ("ledger", p.ledger.toNode), ("stats", p.totals.toNode)]

/-- Read a profile. -/
def ofNode? (node : Node) : Option (Profile Binary64) := do
  let r ← node.record? ["settings", "ledger", "stats"]
  let settings ← r.orElse "settings" .empty Settings.ofNode?
  let ledger ← r.orElse "ledger" .empty Ledger.ofNode?
  let totals ← r.orElse "stats" ⟨0, 0, 0⟩ Totals.ofNode?
  some ⟨settings, ledger, totals⟩

end Profile

end CardRewards
