import CardRewards.Encoding.Profile
import CardRewards.Proofs.Encoding.Scheme

/-!
# Profiles are read back from their documents

Settings are always read back (`Settings.ofNode?_toNode`). A ledger and totals are read back if all
their amounts are finite, and not read otherwise, because amounts that are not are written as
nothing. So a profile is read back exactly if its amounts are finite: `Profile.ofNode?_toNode`. What
is written is legible in either case (`Profile.legible_toNode`).
-/

namespace CardRewards

namespace Settings

theorem ofNode?_toNode (s : Settings) : ofNode? s.toNode = some s := by
  have htoggles : Node.asDict? Node.asBool? (Node.ofDict .bool s.toggles) = some s.toggles :=
    Node.asDict?_ofDict fun _ _ => rfl
  have hpreferences :
      Node.asDict? Node.asText? (Node.ofDict .text s.preferences) = some s.preferences :=
    Node.asDict?_ofDict fun _ _ => rfl
  have hallocation : BucketTable.ofNode? Node.asUInt32?
      (s.allocation.toNode fun weight => .ofNat weight.toNat) = some s.allocation :=
    BucketTable.ofNode?_toNode Node.asUInt32?_ofNat
  have hnodup : ([("toggles", Node.ofDict .bool s.toggles),
      ("allocation", s.allocation.toNode fun weight => .ofNat weight.toNat),
      ("tier_level", .ofNat s.tierLevel.toNat),
      ("preferences", .ofDict .text s.preferences)].map Prod.fst).Nodup := by
    show ["toggles", "allocation", "tier_level", "preferences"].Nodup
    decide
  obtain ⟨r, hrecord, hslots⟩ := Node.record?_map hnodup
  simp only [List.forall_mem_cons] at hslots
  obtain ⟨h1, h2, h3, h4, -⟩ := hslots
  have hrecord : s.toNode.record? ["toggles", "allocation", "tier_level", "preferences"] = some r :=
    hrecord
  simp only [ofNode?, hrecord, Record.orElse_of_slot? h1, Record.orElse_of_slot? h2,
    Record.orElse_of_slot? h3, Record.orElse_of_slot? h4, htoggles, hallocation,
    Node.asUInt8?_ofNat, hpreferences, Option.bind_eq_bind, Option.bind_some]

theorem legible_toNode (s : Settings) : s.toNode.Legible := by
  refine .map fun entry hentry => ?_
  simp only [List.mem_cons, List.not_mem_nil, or_false] at hentry
  rcases hentry with rfl | rfl | rfl | rfl
  · exact Node.legible_ofDict fun b _ => .bool b
  · exact BucketTable.legible_toNode fun weight =>
      Node.legible_ofNat (Nat.lt_trans weight.toNat_lt (by decide))
  · exact Node.legible_ofNat (Nat.lt_trans s.tierLevel.toNat_lt (by decide))
  · exact Node.legible_ofDict fun s _ => .text s

end Settings

namespace Ledger

/-- A ledger is read back if all its amounts are finite, and not read otherwise. -/
theorem ofNode?_toNode (l : Ledger Binary64) :
    ofNode? l.toNode = if ∀ x ∈ l.counters.values, x.isFinite = true then some l else none := by
  unfold ofNode? toNode
  split
  next hfinite =>
    have hread : ∀ x ∈ l.counters.values, Node.asAmount? (.ofAmount x) = some x := fun x hx => by
      rw [Node.asAmount?_ofAmount, if_pos (hfinite x hx)]
    rw [Node.asDict?_ofDict hread]
    rfl
  next hinfinite =>
    obtain ⟨x, hinfinite⟩ := Classical.not_forall.mp hinfinite
    obtain ⟨hx, hx'⟩ := Classical.not_imp.mp hinfinite
    rw [Node.asDict?_ofDict_eq_none ⟨x, hx, by rw [Node.asAmount?_ofAmount, if_neg hx']⟩]
    rfl

end Ledger

namespace Totals

/-- Totals are read back if both amounts are finite, and not read otherwise. -/
theorem ofNode?_toNode (t : Totals Binary64) :
    ofNode? t.toNode =
      if t.spend.isFinite = true ∧ t.value.isFinite = true then some t else none := by
  have hnodup : ([("total_spend", Node.ofAmount t.spend), ("total_value", .ofAmount t.value),
      ("transaction_count", .ofNat t.count.toNat)].map Prod.fst).Nodup := by
    show ["total_spend", "total_value", "transaction_count"].Nodup
    decide
  obtain ⟨r, hrecord, hslots⟩ := Node.record?_map hnodup
  simp only [List.forall_mem_cons] at hslots
  obtain ⟨h1, h2, h3, -⟩ := hslots
  have hrecord : t.toNode.record? ["total_spend", "total_value", "transaction_count"] = some r :=
    hrecord
  simp only [ofNode?, hrecord, Record.orElse_of_slot? h1, Record.orElse_of_slot? h2,
    Record.orElse_of_slot? h3, Node.asAmount?_ofAmount, Node.asUInt64?_ofNat, Option.bind_eq_bind,
    Option.bind_some]
  by_cases hspend : t.spend.isFinite = true
  · by_cases hvalue : t.value.isFinite = true
    · rw [if_pos hspend, if_pos hvalue, if_pos ⟨hspend, hvalue⟩]
      rfl
    · rw [if_pos hspend, if_neg hvalue, if_neg fun h => hvalue h.2]
      rfl
  · have hnot : ¬ (t.spend.isFinite = true ∧ t.value.isFinite = true) := fun h => hspend h.1
    rw [if_neg hspend, if_neg hnot]
    rfl

theorem legible_toNode (t : Totals Binary64) (hspend : t.spend.isFinite = true → t.spend.ReadsBack)
    (hvalue : t.value.isFinite = true → t.value.ReadsBack) : t.toNode.Legible := by
  refine .map fun entry hentry => ?_
  simp only [List.mem_cons, List.not_mem_nil, or_false] at hentry
  rcases hentry with rfl | rfl | rfl
  · exact Node.legible_ofAmount hspend
  · exact Node.legible_ofAmount hvalue
  · exact Node.legible_ofNat t.count.toNat_lt

end Totals

namespace Profile

/-- The amounts of a profile: the counters and the totals. -/
def amounts (p : Profile Binary64) : List Binary64 :=
  p.totals.spend :: p.totals.value :: p.ledger.counters.values

/-- Whether all amounts of a profile are finite. -/
def IsFinite (p : Profile Binary64) : Prop := ∀ x ∈ p.amounts, x.isFinite = true

instance (p : Profile Binary64) : Decidable p.IsFinite :=
  inferInstanceAs (Decidable (∀ x ∈ p.amounts, x.isFinite = true))

/-- Whether the finite amounts of a profile are written so that they are read as the same. -/
def ReadsBack (p : Profile Binary64) : Prop :=
  ∀ x ∈ p.amounts, x.isFinite = true → x.ReadsBack

instance (p : Profile Binary64) : Decidable p.ReadsBack :=
  inferInstanceAs (Decidable (∀ x ∈ p.amounts, x.isFinite = true → x.ReadsBack))

theorem isFinite_iff (p : Profile Binary64) :
    p.IsFinite ↔ (p.totals.spend.isFinite = true ∧ p.totals.value.isFinite = true) ∧
      ∀ x ∈ p.ledger.counters.values, x.isFinite = true := by
  simp only [IsFinite, amounts, List.forall_mem_cons, and_assoc]

/-- **A profile is read back from its document if all its amounts are finite**, and is not read
otherwise. -/
theorem ofNode?_toNode (p : Profile Binary64) :
    ofNode? p.toNode = if p.IsFinite then some p else none := by
  have hnodup : ([("settings", p.settings.toNode), ("ledger", p.ledger.toNode),
      ("stats", p.totals.toNode)].map Prod.fst).Nodup := by
    show ["settings", "ledger", "stats"].Nodup
    decide
  obtain ⟨r, hrecord, hslots⟩ := Node.record?_map hnodup
  simp only [List.forall_mem_cons] at hslots
  obtain ⟨h1, h2, h3, -⟩ := hslots
  have hrecord : p.toNode.record? ["settings", "ledger", "stats"] = some r := hrecord
  simp only [ofNode?, hrecord, Record.orElse_of_slot? h1, Record.orElse_of_slot? h2,
    Record.orElse_of_slot? h3, p.settings.ofNode?_toNode, p.ledger.ofNode?_toNode,
    p.totals.ofNode?_toNode, isFinite_iff, Option.bind_eq_bind, Option.bind_some]
  by_cases hledger : ∀ x ∈ p.ledger.counters.values, x.isFinite = true
  · by_cases htotals : p.totals.spend.isFinite = true ∧ p.totals.value.isFinite = true
    · rw [if_pos hledger, if_pos htotals, if_pos ⟨htotals, hledger⟩]
      rfl
    · rw [if_pos hledger, if_neg htotals, if_neg fun h => htotals h.1]
      rfl
  · have hnot : ¬ ((p.totals.spend.isFinite = true ∧ p.totals.value.isFinite = true) ∧
        ∀ x ∈ p.ledger.counters.values, x.isFinite = true) := fun h => hledger h.2
    rw [if_neg hledger, if_neg hnot]
    rfl

theorem legible_toNode (p : Profile Binary64) (h : p.ReadsBack) : p.toNode.Legible := by
  refine .map fun entry hentry => ?_
  simp only [List.mem_cons, List.not_mem_nil, or_false] at hentry
  rcases hentry with rfl | rfl | rfl
  · exact p.settings.legible_toNode
  · exact Node.legible_ofDict fun x hx =>
      Node.legible_ofAmount (h x (List.mem_cons_of_mem _ (List.mem_cons_of_mem _ hx)))
  · exact p.totals.legible_toNode (h _ (List.mem_cons_self ..))
      (h _ (List.mem_cons_of_mem _ (List.mem_cons_self ..)))

end Profile

end CardRewards
