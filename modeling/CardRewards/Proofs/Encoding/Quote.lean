import CardRewards.Account
import CardRewards.Encoding.Quote
import CardRewards.Proofs.Encoding.Scheme
import CardRewards.Scheme.Sample

/-!
# Quotes are read back from their documents

A quote travels to whoever shows it, and comes back to be booked. If its amounts are finite it comes
back as it was, whatever it charges and whatever its lines say (`Quote.ofNode?_toNode`). So booking
a quote that has travelled is booking the quote: the answer, the profile and what the store is given
are the same (`documents_readBack`).
-/

namespace CardRewards

open Node (bind_record?_map bind_record?_entryIfSome tagged?_map asOption?_ofOption
  asOption?_ofOption_text asList?_map asName?_text asAmount?_ofAmount)

namespace QuoteLine

theorem ofNode?_toNode {l : QuoteLine Binary64} (h : l.rate.isFinite = true) :
    ofNode? l.toNode = some l := by
  refine bind_record?_entryIfSome
    [("rule_id", .text l.ruleId), ("label", .text l.label), ("status", .text l.status.name),
      ("rate", .ofAmount l.rate)] "note" .text l.note [] (by simp [toNode]) rfl (by decide)
    fun r _ hslots hnote => ?_
  simp only [List.append_nil, List.forall_mem_cons] at hslots
  simp [Record.required, hslots, Record.optional_of_text hnote, Node.asText?, asName?_text,
    asAmount?_ofAmount, h]

end QuoteLine

namespace CapCharge

/-- The amounts of a charge to caps. -/
def amounts : CapCharge Binary64 → List Binary64
  | reward _ _ amount => [amount]
  | _ => []

theorem isReadable_ofAmount (x : Binary64) : (Node.ofAmount x).isReadable = true := by
  unfold Node.ofAmount
  split <;> rfl

theorem ofNode?_toNode {c : CapCharge Binary64} (h : ∀ x ∈ c.amounts, x.isFinite = true) :
    ofNode? c.toNode = some c := by
  cases c with
  | none =>
    have htagged : Node.tagged? "type" (toNode none) = some ("none", .map []) :=
      tagged?_map rfl nofun
    rw [ofNode?, htagged]
    rfl
  | spending key =>
    have htagged : Node.tagged? "type" (toNode (spending key)) =
        some ("spending_cap", .map [("key", key.toNode)]) :=
      tagged?_map rfl (by simp)
    rw [ofNode?, htagged, Option.bind_eq_bind, Option.bind_some]
    simp only [ofTag?]
    refine bind_record?_map rfl rfl (by decide) fun r hslots => ?_
    simp only [List.forall_mem_cons] at hslots
    simp [Record.required, hslots, CounterKey.ofNode?, CounterKey.toNode, Node.asText?]
  | reward key secondary amount =>
    have hamount := h amount (List.mem_singleton_self amount)
    have htagged : Node.tagged? "type" (toNode (reward key secondary amount)) =
        some ("reward_cap", .map ([("key", key.toNode)] ++
          Node.entryIfSome "secondary" CounterKey.toNode secondary ++
          [("amount", .ofAmount amount)])) := by
      refine tagged?_map ?_ ?_
      · cases secondary <;>
          simp [Node.entryIfSome, Node.entriesAreReadable, CounterKey.toNode, Node.isReadable,
            isReadable_ofAmount]
      · cases secondary <;> simp [Node.entryIfSome]
    rw [ofNode?, htagged, Option.bind_eq_bind, Option.bind_some]
    simp only [ofTag?]
    refine bind_record?_entryIfSome [("key", key.toNode)] "secondary" CounterKey.toNode secondary
      [("amount", .ofAmount amount)] rfl rfl (by decide) fun r _ hslots hsecondary => ?_
    simp only [List.cons_append, List.nil_append, List.forall_mem_cons] at hslots
    have hread : r.optional "secondary" CounterKey.ofNode? = some secondary := by
      rw [Record.optional, Record.orElse, hsecondary]
      cases secondary <;> rfl
    simp [Record.required, hslots, hread, CounterKey.ofNode?, CounterKey.toNode, Node.asText?,
      asAmount?_ofAmount, hamount]

end CapCharge

namespace TierCharge

theorem ofNode?_toNode {t : TierCharge Binary64} (h : t.reward.isFinite = true) :
    ofNode? t.toNode = some t := by
  refine bind_record?_map rfl rfl (by decide) fun r hslots => ?_
  simp only [List.forall_mem_cons] at hslots
  simp [Record.required, hslots, Node.asText?, Node.asBool?, asAmount?_ofAmount, h]

end TierCharge

namespace MissionTag

theorem ofNode?_toNode (t : MissionTag) : ofNode? t.toNode = some t := by
  refine bind_record?_map rfl rfl (by decide) fun r hslots => ?_
  simp only [List.forall_mem_cons] at hslots
  simp [Record.required, hslots, Node.asText?, Node.asBool?]

end MissionTag

namespace NoWorth

theorem ofNode?_toNode (w : NoWorth) : ofNode? w.toNode = some w := by
  cases w with
  | missingConversion currency =>
    have htagged : Node.tagged? "reason" (toNode (missingConversion currency)) =
        some ("missing_conversion", .map [("currency", .text currency)]) :=
      tagged?_map rfl (by simp)
    rw [ofNode?, htagged, Option.bind_eq_bind, Option.bind_some]
    simp only [ofTag?]
    refine bind_record?_map rfl rfl (by decide) fun r hslots => ?_
    simp only [List.forall_mem_cons] at hslots
    simp [Record.required, hslots, Node.asText?]
  | zeroConversion mode =>
    have htagged : Node.tagged? "reason" (toNode (zeroConversion mode)) =
        some ("zero_conversion", .map [("mode", .text mode.name)]) :=
      tagged?_map rfl (by simp)
    rw [ofNode?, htagged, Option.bind_eq_bind, Option.bind_some]
    simp only [ofTag?]
    refine bind_record?_map rfl rfl (by decide) fun r hslots => ?_
    simp only [List.forall_mem_cons] at hslots
    simp [Record.required, hslots, asName?_text]

end NoWorth

namespace Quote

/-- The amounts of a quote. -/
def amounts (q : Quote Binary64) : List Binary64 :=
  [q.amount, q.totalRate, q.nativeValue, q.cashValue, q.milesValue, q.displayValue] ++
    q.lines.map (·.rate) ++ q.capCharge.amounts ++ q.tierCharge.toList.map (·.reward) ++
    q.conversion.toList.flatMap Conversion.amounts

/-- **A quote is read back from its document** if its amounts are finite. -/
theorem ofNode?_toNode {q : Quote Binary64} (h : ∀ x ∈ q.amounts, x.isFinite = true) :
    ofNode? q.toNode = some q := by
  simp only [amounts, List.forall_mem_append, List.forall_mem_cons, List.forall_mem_map,
    List.forall_mem_flatMap, Option.mem_toList] at h
  obtain ⟨⟨⟨⟨hvalues, hlines⟩, hcap⟩, htier⟩, hconversion⟩ := h
  have hlines : Node.asList? QuoteLine.ofNode? (.list (q.lines.map QuoteLine.toNode)) =
      some q.lines :=
    asList?_map fun line hline => QuoteLine.ofNode?_toNode (hlines line hline)
  have htier : Node.asOption? TierCharge.ofNode? (.ofOption TierCharge.toNode q.tierCharge) =
      some q.tierCharge :=
    asOption?_ofOption fun charge hcharge => ⟨rfl, TierCharge.ofNode?_toNode (htier charge hcharge)⟩
  have htags : Node.asList? MissionTag.ofNode? (.list (q.missionTags.map MissionTag.toNode)) =
      some q.missionTags :=
    asList?_map fun tag _ => tag.ofNode?_toNode
  have hnoWorth : Node.asOption? NoWorth.ofNode? (.ofOption NoWorth.toNode q.noWorth) =
      some q.noWorth := by
    refine asOption?_ofOption fun reason _ => ⟨?_, reason.ofNode?_toNode⟩
    cases reason <;> rfl
  have hconversion : Node.asOption? Conversion.ofNode? (.ofOption Conversion.toNode q.conversion) =
      some q.conversion :=
    asOption?_ofOption fun conversion hmem =>
      ⟨rfl, Conversion.ofNode?_toNode (hconversion conversion hmem)⟩
  refine bind_record?_map rfl rfl (by decide) fun r hslots => ?_
  simp only [List.forall_mem_cons] at hslots
  simp [Record.required, Record.optional, Record.orElse, hslots, Node.asText?, asName?_text,
    asAmount?_ofAmount, hvalues, hlines, CapCharge.ofNode?_toNode hcap, htier, htags,
    asOption?_ofOption_text, hnoWorth, hconversion]

end Quote

/-- **Reading undoes writing**: a scheme and a quote are read back from their documents as they were,
and booking a quote that has been read back is booking the quote, in every account and with every
store. -/
theorem documents_readBack {s : Scheme Binary64} (hs : ∀ x ∈ s.amounts, x.isFinite = true)
    (hdates : ∀ d ∈ s.dates, d.exists? = true) {q : Quote Binary64}
    (hq : ∀ x ∈ q.amounts, x.isFinite = true) :
    Scheme.ofNode? s.toNode = some s ∧ Quote.ofNode? q.toNode = some q ∧
      ∀ (σ : Type) [ProfileStore σ Binary64] (b : RuleBook Binary64) (a : Account σ Binary64),
        (Quote.ofNode? q.toNode).map (b.commit a) = some (b.commit a q) := by
  have hread := Quote.ofNode?_toNode hq
  refine ⟨Scheme.ofNode?_toNode hs hdates, hread, fun σ _ b a => ?_⟩
  rw [hread, Option.map_some]

/-- A scheme with a campaign between two dates and a period that is counted from a third one, and a
quote that charges two caps on rewards, a tier program and two missions. -/
theorem documents_readBack_sample :
    let s : Scheme Binary64 :=
      { Sample.single
          [(RuleSpec.flat "dining" (.ofNat 2) ["dining"]).capped .reward "k" (.ofNat 300),
            { RuleSpec.base "base" 1 with period := some ⟨.quarterly, .statementDay 15⟩ }] with
        missions := [⟨"m", some "m", some (.ofNat 8000), none⟩]
        tierProgram := some ⟨"program", 1, [⟨1, 1, .ofNat 40⟩], "travel", none, some .tier⟩
        campaigns := [⟨"spring", none, ⟨.campaign, .date ⟨2024, 2, 29⟩⟩, some ⟨2024, 3, 1⟩,
          some ⟨9999, 12, 31⟩, ["base"], ["k"]⟩] }
    let q : Quote Binary64 :=
      ⟨"card", "card", .ofNat 100, "dining", "dining", "cash", 0, 0, 0, 0, .miles, 0,
        [⟨"dining", "dining", .partly, .ofNat 2, some "note"⟩, ⟨"tier", "tier", .capped, 0, none⟩],
        .reward (.configured "k") (some (.configured "shared")) (.ofNat 5),
        some ⟨"program", .ofNat 3, true⟩, [⟨"m", true⟩, ⟨"n", false⟩], some "dining",
        some (.zeroConversion .miles), some ⟨1, 0⟩⟩
    (∀ x ∈ s.amounts, x.isFinite = true) ∧ (∀ d ∈ s.dates, d.exists? = true) ∧
      (∀ x ∈ q.amounts, x.isFinite = true) ∧
      Scheme.ofNode? s.toNode = some s ∧ Quote.ofNode? q.toNode = some q := by
  intro s q
  have hs : ∀ x ∈ s.amounts, x.isFinite = true := by decide +kernel
  have hdates : ∀ d ∈ s.dates, d.exists? = true := by decide +kernel
  have hq : ∀ x ∈ q.amounts, x.isFinite = true := by decide +kernel
  obtain ⟨hscheme, hquote, -⟩ := documents_readBack hs hdates hq
  exact ⟨hs, hdates, hq, hscheme, hquote⟩

end CardRewards
