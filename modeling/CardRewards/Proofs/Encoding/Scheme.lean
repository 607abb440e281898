import CardRewards.Encoding.Scheme
import CardRewards.Proofs.Calendar.Date
import CardRewards.Proofs.Document.Node

/-!
# Schemes are read back from their documents

Record by record, what is written is read as it was, whichever optional fields are there. Two things
have to hold of what is in a record, and each record lists them: its amounts, which have to be
finite because others are written as nothing, and its dates, which have to be days of the calendar.
So a scheme is read back if all its amounts are finite and all its dates are days of the calendar:
`Scheme.ofNode?_toNode`.
-/

namespace CardRewards

open Node (bind_record?_map bind_record?_entryIfSome tagged?_map asOption?_ofOption
  asOption?_ofOption_text asOption?_ofOption_amount asList?_map asTexts?_ofTexts asDict?_ofDict
  asName?_text asUInt8?_ofNat asUInt32?_ofNat asAmount?_ofAmount)

namespace Date

theorem ofNode?_toNode {d : Date} (h : d.exists? = true) : ofNode? d.toNode = some d := read?_text h

/-- Dates that are days of the calendar or missing are read. -/
theorem asOption?_dates {values : List (Option Date)}
    (h : ∀ d ∈ values.flatMap Option.toList, d.exists? = true) :
    ∀ value ∈ values, Node.asOption? ofNode? (.ofOption toNode value) = some value :=
  fun value hvalue => asOption?_ofOption fun d hd =>
    ⟨rfl, ofNode?_toNode (h d (List.mem_flatMap.mpr ⟨value, hvalue, Option.mem_toList.mpr hd⟩))⟩

end Date

namespace Anchor

/-- The dates of an anchor. -/
def dates : Anchor → List Date
  | date d => [d]
  | _ => []

theorem ofNode?_toNode {a : Anchor} (h : ∀ d ∈ a.dates, d.exists? = true) :
    ofNode? a.toNode = some a := by
  cases a with
  | calendar =>
    have htagged : Node.tagged? "type" (toNode calendar) = some ("calendar", .map []) :=
      tagged?_map rfl nofun
    rw [ofNode?, htagged]
    rfl
  | statementDay day =>
    have htagged : Node.tagged? "type" (toNode (statementDay day)) =
        some ("statement_day", .map [("day", .ofNat day.toNat)]) :=
      tagged?_map rfl (by simp)
    rw [ofNode?, htagged, Option.bind_eq_bind, Option.bind_some]
    simp only [ofTag?]
    refine bind_record?_map rfl rfl (by decide) fun r hslots => ?_
    simp only [List.forall_mem_cons] at hslots
    simp [Record.required, hslots, asUInt8?_ofNat]
  | date d =>
    have htagged : Node.tagged? "type" (toNode (date d)) =
        some ("date", .map [("date", d.toNode)]) :=
      tagged?_map rfl (by simp)
    rw [ofNode?, htagged, Option.bind_eq_bind, Option.bind_some]
    simp only [ofTag?]
    refine bind_record?_map rfl rfl (by decide) fun r hslots => ?_
    simp only [List.forall_mem_cons] at hslots
    simp [Record.required, hslots, Date.ofNode?_toNode (h d (List.mem_singleton_self d))]

end Anchor

namespace Period

/-- The dates of a period. -/
def dates (p : Period) : List Date := p.anchor.dates

theorem ofNode?_toNode {p : Period} (h : ∀ d ∈ p.dates, d.exists? = true) :
    ofNode? p.toNode = some p := by
  refine bind_record?_map rfl rfl (by decide) fun r hslots => ?_
  simp only [List.forall_mem_cons] at hslots
  simp [Record.required, Record.orElse, hslots, asName?_text, Anchor.ofNode?_toNode h]

theorem asOption?_toNode {p : Option Period} (h : ∀ d ∈ p.toList.flatMap dates, d.exists? = true) :
    Node.asOption? ofNode? (.ofOption toNode p) = some p := by
  refine asOption?_ofOption fun period hperiod => ⟨rfl, ofNode?_toNode fun d hd => h d ?_⟩
  exact List.mem_flatMap.mpr ⟨period, Option.mem_toList.mpr hperiod, hd⟩

end Period

namespace Redemption

theorem ofNode?_toNode (r : Redemption) : ofNode? r.toNode = some r := by
  refine bind_record?_entryIfSome [("unit_label", .text r.unitLabel)] "note" .text r.note []
    (by simp [toNode]) rfl (by decide) fun record _ hslots hnote => ?_
  simp only [List.append_nil, List.forall_mem_cons] at hslots
  simp [Record.required, hslots, Record.optional_of_text hnote, Node.asText?]

end Redemption

namespace Card

theorem ofNode?_toNode (c : Card) : ofNode? c.toNode = some c := by
  refine bind_record?_map rfl rfl (by decide) fun r hslots => ?_
  simp only [List.forall_mem_cons] at hslots
  simp [Record.required, Record.orElse, hslots, Node.asText?, asTexts?_ofTexts, Node.asBool?,
    Redemption.ofNode?_toNode]

end Card

namespace Conversion

/-- The amounts of a conversion. -/
def amounts (c : Conversion Binary64) : List Binary64 := [c.cashPerUnit, c.milesPerUnit]

theorem ofNode?_toNode {c : Conversion Binary64} (h : ∀ x ∈ c.amounts, x.isFinite = true) :
    ofNode? c.toNode = some c := by
  simp only [amounts, List.forall_mem_cons] at h
  refine bind_record?_map rfl rfl (by decide) fun r hslots => ?_
  simp only [List.forall_mem_cons] at hslots
  simp [Record.orElse, hslots, asAmount?_ofAmount, h]

end Conversion

namespace RuleSpec

/-- The amounts of a rule. -/
def amounts (s : RuleSpec Binary64) : List Binary64 :=
  [s.rate, s.ratePerUnit, s.units, s.capLimit, s.secondaryCapLimit, s.minSpend, s.minSingleSpend,
    s.reqMissionSpend].flatMap Option.toList

/-- The dates of a rule. -/
def dates (s : RuleSpec Binary64) : List Date := s.period.toList.flatMap Period.dates

theorem ofNode?_toNode {s : RuleSpec Binary64} (hamounts : ∀ x ∈ s.amounts, x.isFinite = true)
    (hdates : ∀ d ∈ s.dates, d.exists? = true) : ofNode? s.toNode = some s := by
  have hread := Node.asOption?_amounts hamounts
  simp only [List.forall_mem_cons] at hread
  refine bind_record?_entryIfSome [("id", .text s.id)] "label" .text s.label _ rfl rfl (by decide)
    fun r _ hslots hlabel => ?_
  simp only [List.cons_append, List.nil_append, List.forall_mem_cons] at hslots
  simp [Record.required, Record.orElse, Record.nullable, hslots, Record.optional_of_text hlabel,
    Node.asText?, asTexts?_ofTexts, asOption?_ofOption_text, hread,
    Period.asOption?_toNode hdates]

end RuleSpec

/-! ## Category tables -/

namespace Hierarchy

theorem ofNode?_toNode (h : Hierarchy) : ofNode? h.toNode = some h := by
  have hparents : Node.asDict? Node.asTexts? (.ofDict .ofTexts h.parents) = some h.parents :=
    asDict?_ofDict fun texts _ => asTexts?_ofTexts texts
  refine bind_record?_map rfl rfl (by decide) fun r hslots => ?_
  simp only [List.forall_mem_cons] at hslots
  simp [Record.orElse, hslots, hparents, Node.asBool?]

end Hierarchy

namespace PreferenceOption

theorem ofNode?_toNode (o : PreferenceOption) : ofNode? o.toNode = some o := by
  refine bind_record?_map rfl rfl (by decide) fun r hslots => ?_
  simp only [List.forall_mem_cons] at hslots
  simp [Record.required, hslots, asTexts?_ofTexts, Node.asText?]

end PreferenceOption

namespace PreferenceGroup

theorem ofNode?_toNode (g : PreferenceGroup) : ofNode? g.toNode = some g := by
  have hoptions : Node.asDict? PreferenceOption.ofNode? (.ofDict PreferenceOption.toNode g.options) =
      some g.options :=
    asDict?_ofDict fun option _ => option.ofNode?_toNode
  refine bind_record?_map rfl rfl (by decide) fun r hslots => ?_
  simp only [List.forall_mem_cons] at hslots
  simp [Record.required, hslots, asTexts?_ofTexts, Node.asText?, hoptions]

end PreferenceGroup

namespace ResolverTables

theorem ofNode?_toNode (t : ResolverTables) : ofNode? t.toNode = some t := by
  have htexts : ∀ d : Dict String, Node.asDict? Node.asText? (.ofDict .text d) = some d :=
    fun d => asDict?_ofDict fun _ _ => rfl
  have hoverrides : Node.asDict? (Node.asDict? Node.asText?)
      (.ofDict (.ofDict .text) t.cardOverrides) = some t.cardOverrides :=
    asDict?_ofDict fun d _ => htexts d
  have hpreferences : Node.asList? PreferenceGroup.ofNode?
      (.list (t.preferences.map PreferenceGroup.toNode)) = some t.preferences :=
    asList?_map fun group _ => group.ofNode?_toNode
  refine bind_record?_map rfl rfl (by decide) fun r hslots => ?_
  simp only [List.forall_mem_cons] at hslots
  simp [Record.orElse, hslots, htexts, hoverrides, hpreferences]

end ResolverTables

/-! ## Allocation, missions, campaigns and tiers -/

namespace BucketTable

variable {V : Type} {write : V → Node} {read : Node → Option V}

theorem ofList_toList (t : BucketTable V) : ofList t.toList = t := by
  obtain ⟨dining, online, travel, overseas, entertainment⟩ := t
  cases dining <;> cases online <;> cases travel <;> cases overseas <;> cases entertainment <;> rfl

theorem ofNode?_toNode {t : BucketTable V} (h : ∀ v, read (write v) = some v) :
    ofNode? read (t.toNode write) = some t := by
  have hread : ∀ entry ∈ t.toList, (do
      let bucket ← Bucket.ofName? entry.1.name
      let value ← read (write entry.2)
      some (bucket, value)) = some entry := fun entry _ => by
    rw [Bucket.ofName?_name, h]
    rfl
  show ((t.toList.map fun entry : Bucket × V => (entry.1.name, write entry.2)).mapM
    fun entry : String × Node => do
      let bucket ← Bucket.ofName? entry.1
      let value ← read entry.2
      some (bucket, value)).bind (fun entries => some (ofList entries)) = some t
  rw [mapM_map_eq_some hread, Option.bind_some, ofList_toList]

theorem legible_toNode {t : BucketTable V} (h : ∀ v, (write v).Legible) :
    (t.toNode write).Legible := by
  refine .map fun entry hentry => ?_
  obtain ⟨⟨bucket, v⟩, _, rfl⟩ := List.mem_map.mp hentry
  exact h v

end BucketTable

namespace Allocation

theorem ofNode?_toNode (a : Allocation) : ofNode? a.toNode = some a := by
  have hbuckets : BucketTable.ofNode? Node.asTexts? (a.buckets.toNode .ofTexts) = some a.buckets :=
    BucketTable.ofNode?_toNode asTexts?_ofTexts
  refine bind_record?_map rfl rfl (by decide) fun r hslots => ?_
  simp only [List.forall_mem_cons] at hslots
  simp [Record.orElse, hslots, asUInt32?_ofNat, hbuckets]

end Allocation

namespace Mission

/-- The amounts of a mission. -/
def amounts (m : Mission Binary64) : List Binary64 := [m.targetSpend].flatMap Option.toList

/-- The dates of a mission. -/
def dates (m : Mission Binary64) : List Date := m.period.toList.flatMap Period.dates

theorem ofNode?_toNode {m : Mission Binary64} (hamounts : ∀ x ∈ m.amounts, x.isFinite = true)
    (hdates : ∀ d ∈ m.dates, d.exists? = true) : ofNode? m.toNode = some m := by
  have hread := Node.asOption?_amounts hamounts
  simp only [List.forall_mem_cons] at hread
  refine bind_record?_map rfl rfl (by decide) fun r hslots => ?_
  simp only [List.forall_mem_cons] at hslots
  simp [Record.required, Record.optional, Record.orElse, hslots, Node.asText?,
    asOption?_ofOption_text, hread, Period.asOption?_toNode hdates]

end Mission

namespace Campaign

/-- The dates of a campaign. -/
def dates (c : Campaign) : List Date := c.period.dates ++ [c.startsOn, c.endsOn].flatMap Option.toList

theorem ofNode?_toNode {c : Campaign} (hdates : ∀ d ∈ c.dates, d.exists? = true) :
    ofNode? c.toNode = some c := by
  obtain ⟨hperiod, hends⟩ := List.forall_mem_append.mp hdates
  have hread := Date.asOption?_dates hends
  simp only [List.forall_mem_cons] at hread
  refine bind_record?_map rfl rfl (by decide) fun r hslots => ?_
  simp only [List.forall_mem_cons] at hslots
  simp [Record.required, Record.optional, Record.orElse, hslots, Node.asText?,
    asOption?_ofOption_text, asTexts?_ofTexts, hread, Period.ofNode?_toNode hperiod]

end Campaign

namespace TierLevel

/-- The amounts of a row of a tier program. -/
def amounts (l : TierLevel Binary64) : List Binary64 := [l.rate, l.cap]

theorem ofNode?_toNode {l : TierLevel Binary64} (h : ∀ x ∈ l.amounts, x.isFinite = true) :
    ofNode? l.toNode = some l := by
  simp only [amounts, List.forall_mem_cons] at h
  refine bind_record?_map rfl rfl (by decide) fun r hslots => ?_
  simp only [List.forall_mem_cons] at hslots
  simp [Record.required, hslots, asUInt8?_ofNat, asAmount?_ofAmount, h]

end TierLevel

namespace TierProgram

/-- The amounts of a tier program. -/
def amounts (p : TierProgram Binary64) : List Binary64 := p.levels.flatMap TierLevel.amounts

/-- The dates of a tier program. -/
def dates (p : TierProgram Binary64) : List Date := p.period.toList.flatMap Period.dates

theorem ofNode?_toNode {p : TierProgram Binary64} (hamounts : ∀ x ∈ p.amounts, x.isFinite = true)
    (hdates : ∀ d ∈ p.dates, d.exists? = true) : ofNode? p.toNode = some p := by
  have hlevels : Node.asList? TierLevel.ofNode? (.list (p.levels.map TierLevel.toNode)) =
      some p.levels :=
    asList?_map fun level hlevel => TierLevel.ofNode?_toNode fun x hx =>
      hamounts x (List.mem_flatMap.mpr ⟨level, hlevel, hx⟩)
  refine bind_record?_map rfl rfl (by decide) fun r hslots => ?_
  simp only [List.forall_mem_cons] at hslots
  simp [Record.required, Record.optional, Record.orElse, hslots, Node.asText?, asUInt8?_ofNat,
    asOption?_ofOption_text, hlevels, Period.asOption?_toNode hdates]

end TierProgram

/-! ## Schemes -/

namespace Scheme

/-- The amounts of a scheme. -/
def amounts (s : Scheme Binary64) : List Binary64 :=
  s.rules.flatMap RuleSpec.amounts ++ s.conversions.values.flatMap Conversion.amounts ++
    s.missions.flatMap Mission.amounts ++ s.tierProgram.toList.flatMap TierProgram.amounts

/-- The dates of a scheme. -/
def dates (s : Scheme Binary64) : List Date :=
  s.rules.flatMap RuleSpec.dates ++ s.missions.flatMap Mission.dates ++
    s.campaigns.flatMap Campaign.dates ++ s.tierProgram.toList.flatMap TierProgram.dates ++
    s.defaultPeriod.dates

/-- **A scheme is read back from its document** if its amounts are finite and its dates are days of
the calendar. -/
theorem ofNode?_toNode {s : Scheme Binary64} (hamounts : ∀ x ∈ s.amounts, x.isFinite = true)
    (hdates : ∀ d ∈ s.dates, d.exists? = true) : ofNode? s.toNode = some s := by
  simp only [amounts, List.forall_mem_append, List.forall_mem_flatMap, Option.mem_toList]
    at hamounts
  simp only [dates, List.forall_mem_append, List.forall_mem_flatMap, Option.mem_toList] at hdates
  obtain ⟨⟨⟨hrules, hconversions⟩, hmissions⟩, htier⟩ := hamounts
  obtain ⟨⟨⟨⟨hruleDates, hmissionDates⟩, hcampaignDates⟩, htierDates⟩, hperiodDates⟩ := hdates
  have hcards : Node.asList? Card.ofNode? (.list (s.cards.map Card.toNode)) = some s.cards :=
    asList?_map fun card _ => card.ofNode?_toNode
  have hrules : Node.asList? RuleSpec.ofNode? (.list (s.rules.map RuleSpec.toNode)) =
      some s.rules :=
    asList?_map fun rule hrule =>
      RuleSpec.ofNode?_toNode (hrules rule hrule) (hruleDates rule hrule)
  have hconversions : Node.asDict? Conversion.ofNode? (.ofDict Conversion.toNode s.conversions) =
      some s.conversions :=
    asDict?_ofDict fun conversion hconversion =>
      Conversion.ofNode?_toNode (hconversions conversion hconversion)
  have hmissions : Node.asList? Mission.ofNode? (.list (s.missions.map Mission.toNode)) =
      some s.missions :=
    asList?_map fun mission hmission =>
      Mission.ofNode?_toNode (hmissions mission hmission) (hmissionDates mission hmission)
  have hcampaigns : Node.asList? Campaign.ofNode? (.list (s.campaigns.map Campaign.toNode)) =
      some s.campaigns :=
    asList?_map fun campaign hcampaign =>
      Campaign.ofNode?_toNode (hcampaignDates campaign hcampaign)
  have htier : Node.asOption? TierProgram.ofNode? (.ofOption TierProgram.toNode s.tierProgram) =
      some s.tierProgram :=
    asOption?_ofOption fun program hprogram =>
      ⟨rfl, TierProgram.ofNode?_toNode (htier program hprogram) (htierDates program hprogram)⟩
  refine bind_record?_map rfl rfl (by decide) fun r hslots => ?_
  simp only [List.forall_mem_cons] at hslots
  simp [Record.optional, Record.orElse, hslots, asTexts?_ofTexts, hcards, hrules, hconversions,
    hmissions, hcampaigns, htier, s.hierarchy.ofNode?_toNode, s.resolver.ofNode?_toNode,
    s.allocation.ofNode?_toNode, Period.ofNode?_toNode hperiodDates]

end Scheme

end CardRewards
