import CardRewards.Audit
import CardRewards.Category.Resolve
import CardRewards.Proofs.Category.Ancestry
import CardRewards.Proofs.Dict
import CardRewards.Proofs.FirstMatch

/-!
# What a raw category becomes

Three tables have a say in the category of a purchase, each of them about the raw category only: the
overrides of the card, the option chosen for the card's product line, and the aliases. The first
that says something is followed, and nothing is looked up for what it says (`Resolver.Resolves`).

What the tables can say is all listed in `Resolver.knownCategories`, and so is everything further up
in the hierarchy. A purchase therefore counts as no category outside that list but its raw one, and
the list is part of what an audit takes for known: `Resolver.resolve_closed`.
-/

namespace CardRewards

namespace Hierarchy

variable {h : Hierarchy} {c a : String}

/-- An ancestor is the parent of something. -/
theorem exists_child_of_mem_ancestors (ha : a ∈ h.ancestors c) : ∃ b, a ∈ h.parentsOf b := by
  cases htransitive : h.transitive with
  | true =>
    obtain ⟨-, n, way⟩ := (mem_ancestors_iff htransitive).mp ha
    cases way with
    | @up _ b _ _ parent => exact ⟨b, parent⟩
  | false =>
    rw [ancestors, htransitive] at ha
    exact ⟨c, ha⟩

end Hierarchy

namespace Resolver

variable {r : Resolver} {card raw category : String} {settings : Settings}
  {option : PreferenceOption}

/-! ## The tables -/

/-- The card's own table says what the raw category becomes. -/
def Overrides (r : Resolver) (card raw category : String) : Prop :=
  ∃ table, r.tables.cardOverrides.get? card = some table ∧ table.get? raw = some category

/-- The first product line with the card has an option by the name of the customer's choice. -/
def Chooses (r : Resolver) (card : String) (settings : Settings) (option : PreferenceOption) :
    Prop :=
  ∃ group choice, FirstIn r.tables.preferences (fun g => card ∈ g.cardIds) group ∧
    settings.preferences.get? group.productLine = some choice ∧
    group.options.get? choice = some option

/-- The option chosen takes the raw category, which counts as one of those that it lists. -/
def Prefers (r : Resolver) (card raw : String) (settings : Settings) (category : String) : Prop :=
  ∃ option, r.Chooses card settings option ∧
    (∃ a ∈ option.categories, r.hierarchy.CountsAs raw a) ∧ option.effective = category

theorem override?_eq_some_iff :
    r.override? card raw = some category ↔ r.Overrides card raw category :=
  Option.bind_eq_some_iff

theorem chosenOption?_eq_some_iff :
    r.chosenOption? card settings = some option ↔ r.Chooses card settings option := by
  have hfirst (group : PreferenceGroup) :
      r.tables.preferences.find? (·.cardIds.contains card) = some group ↔
        FirstIn r.tables.preferences (fun g => card ∈ g.cardIds) group :=
    find?_eq_some_iff_firstIn fun g => by simp
  unfold chosenOption? Chooses
  simp only [Option.bind_eq_bind, Option.bind_eq_some_iff, hfirst, Settings.preference?,
    exists_and_left]

theorem preferred?_eq_some_iff :
    r.preferred? card raw settings = some category ↔ r.Prefers card raw settings category := by
  unfold preferred? Prefers
  simp only [← chosenOption?_eq_some_iff, ← Hierarchy.isMatch_iff_countsAs]
  cases r.chosenOption? card settings with
  | none => simp
  | some option => simp

/-! ## Which of them is followed -/

/-- What a raw category becomes on a card: what the first table says of it that says anything, and
else it stays what it is. -/
inductive Resolves (r : Resolver) (card raw : String) (settings : Settings) : String → Prop
  | overridden {category : String} (found : r.Overrides card raw category) :
    Resolves r card raw settings category
  | preferred {category : String} (noOverride : ∀ other, ¬ r.Overrides card raw other)
    (found : r.Prefers card raw settings category) : Resolves r card raw settings category
  | aliased {category : String} (noOverride : ∀ other, ¬ r.Overrides card raw other)
    (noPreference : ∀ other, ¬ r.Prefers card raw settings other)
    (found : r.tables.aliases.get? raw = some category) : Resolves r card raw settings category
  | unchanged (noOverride : ∀ other, ¬ r.Overrides card raw other)
    (noPreference : ∀ other, ¬ r.Prefers card raw settings other)
    (noAlias : r.tables.aliases.get? raw = none) : Resolves r card raw settings raw

theorem override?_eq_none_iff :
    r.override? card raw = none ↔ ∀ other, ¬ r.Overrides card raw other := by
  simp only [Option.eq_none_iff_forall_ne_some, ne_eq, override?_eq_some_iff]

theorem preferred?_eq_none_iff :
    r.preferred? card raw settings = none ↔ ∀ other, ¬ r.Prefers card raw settings other := by
  simp only [Option.eq_none_iff_forall_ne_some, ne_eq, preferred?_eq_some_iff]

theorem resolves_resolve (r : Resolver) (card raw : String) (settings : Settings) :
    r.Resolves card raw settings (r.resolve card raw settings) := by
  unfold resolve
  split
  next category hoverride => exact .overridden (override?_eq_some_iff.mp hoverride)
  next hoverride =>
    have noOverride := override?_eq_none_iff.mp hoverride
    split
    next category hpreferred => exact .preferred noOverride (preferred?_eq_some_iff.mp hpreferred)
    next hpreferred =>
      have noPreference := preferred?_eq_none_iff.mp hpreferred
      cases halias : r.tables.aliases.get? raw with
      | some category => exact .aliased noOverride noPreference halias
      | none => exact .unchanged noOverride noPreference halias

theorem Resolves.resolve_eq (h : r.Resolves card raw settings category) :
    r.resolve card raw settings = category := by
  unfold resolve
  cases h with
  | overridden found => rw [override?_eq_some_iff.mpr found]
  | preferred noOverride found =>
    rw [override?_eq_none_iff.mpr noOverride, preferred?_eq_some_iff.mpr found]
  | aliased noOverride noPreference found =>
    rw [override?_eq_none_iff.mpr noOverride, preferred?_eq_none_iff.mpr noPreference, found]
    rfl
  | unchanged noOverride noPreference noAlias =>
    rw [override?_eq_none_iff.mpr noOverride, preferred?_eq_none_iff.mpr noPreference, noAlias]
    rfl

/-! ## Known categories -/

theorem mem_knownCategories_of_parent {c p : String} (h : p ∈ r.hierarchy.parentsOf c) :
    p ∈ r.knownCategories := by
  unfold Hierarchy.parentsOf at h
  cases hparents : r.hierarchy.parents.get? c with
  | none => simp [hparents] at h
  | some parents =>
    rw [hparents, Option.getD_some] at h
    simp only [knownCategories, Text.mem_sortedSet, List.mem_append]
    refine .inl (.inl (.inl (List.mem_flatMap.mpr ⟨(c, parents), ?_, List.mem_cons_of_mem c h⟩)))
    exact Dict.get?_eq_some_iff.mp hparents

theorem Overrides.mem_knownCategories (h : r.Overrides card raw category) :
    category ∈ r.knownCategories := by
  obtain ⟨table, htable, hcategory⟩ := h
  simp only [knownCategories, Text.mem_sortedSet, List.mem_append]
  refine .inl (.inl (.inr (List.mem_flatMap.mpr ⟨table, Dict.mem_values_of_get? htable, ?_⟩)))
  refine List.mem_flatMap.mpr ⟨(raw, category), Dict.get?_eq_some_iff.mp hcategory, ?_⟩
  exact List.mem_cons_of_mem raw (List.mem_singleton_self category)

theorem mem_knownCategories_of_alias (h : r.tables.aliases.get? raw = some category) :
    category ∈ r.knownCategories := by
  simp only [knownCategories, Text.mem_sortedSet, List.mem_append]
  refine .inl (.inr (List.mem_flatMap.mpr ⟨(raw, category), Dict.get?_eq_some_iff.mp h, ?_⟩))
  exact List.mem_cons_of_mem raw (List.mem_singleton_self category)

theorem Prefers.mem_knownCategories (h : r.Prefers card raw settings category) :
    category ∈ r.knownCategories := by
  obtain ⟨option, ⟨group, choice, hgroup, -, hoption⟩, -, rfl⟩ := h
  simp only [knownCategories, Text.mem_sortedSet, List.mem_append]
  refine .inr (List.mem_flatMap.mpr ⟨group, hgroup.mem, ?_⟩)
  refine List.mem_flatMap.mpr ⟨option, Dict.mem_values_of_get? hoption, ?_⟩
  exact List.mem_append_right _ (List.mem_singleton_self option.effective)

theorem Resolves.eq_or_mem_knownCategories (h : r.Resolves card raw settings category) :
    category = raw ∨ category ∈ r.knownCategories := by
  cases h with
  | overridden found => exact .inr found.mem_knownCategories
  | preferred _ found => exact .inr found.mem_knownCategories
  | aliased _ _ found => exact .inr (mem_knownCategories_of_alias found)
  | unchanged => exact .inl rfl

theorem mem_knownCategories_of_mem_ancestors {c a : String} (h : a ∈ r.hierarchy.ancestors c) :
    a ∈ r.knownCategories := by
  obtain ⟨b, hparent⟩ := Hierarchy.exists_child_of_mem_ancestors h
  exact mem_knownCategories_of_parent hparent

/-- What a resolver knows an audit knows. -/
theorem mem_knownCategories_ruleBook {α : Type} [Amount α] (b : RuleBook α)
    (h : category ∈ b.resolver.knownCategories) : category ∈ b.knownCategories := by
  simp only [RuleBook.knownCategories, List.mem_append]
  exact .inl (.inl (.inl h))

/-- **The first table that says something is followed, and all that comes of it is known.** A raw
category becomes what the card's overrides say, else what the chosen option says if it takes the raw
category, else what the aliases say, else it stays what it is, each of them asked about the raw
category alone. What it becomes is the raw category or one of the known categories, and every
ancestor of any category is a known one. So a purchase counts as its raw category and as known ones
only, and an audit knows these too. -/
theorem resolve_closed (r : Resolver) (card raw : String) (settings : Settings) :
    (∀ category, r.resolve card raw settings = category ↔
      r.Resolves card raw settings category) ∧
    (r.resolve card raw settings = raw ∨ r.resolve card raw settings ∈ r.knownCategories) ∧
    (∀ category, ∀ a ∈ r.hierarchy.ancestors category, a ∈ r.knownCategories) ∧
    ∀ (α : Type) [Amount α] (b : RuleBook α), b.resolver = r →
      ∀ a, r.hierarchy.CountsAs (r.resolve card raw settings) a →
        a = raw ∨ a ∈ b.knownCategories := by
  have hresolves := resolves_resolve r card raw settings
  refine ⟨fun category => ⟨fun heq => heq ▸ hresolves, Resolves.resolve_eq⟩,
    hresolves.eq_or_mem_knownCategories, fun _ _ => mem_knownCategories_of_mem_ancestors, ?_⟩
  rintro α _ b rfl a hcounts
  rcases Hierarchy.countsAs_iff.mp hcounts with rfl | hancestor
  · exact hresolves.eq_or_mem_knownCategories.imp_right (mem_knownCategories_ruleBook b)
  · exact .inr (mem_knownCategories_ruleBook b (mem_knownCategories_of_mem_ancestors hancestor))

/-- Spending in Japan, on which every table has something to say, and an alias for what the option
of the product line makes of it. The card is in two product lines. -/
def abroad : Resolver where
  hierarchy := (Hierarchy.empty.withParent "overseas_jp" "overseas").withParent "overseas" "travel"
  tables :=
    { cardOverrides := .ofList [("red", .ofList [("overseas_jp", "online")])]
      preferences :=
        [⟨"travel_plus", ["visa"], .ofList [("japan", ⟨["overseas"], "pref_japan"⟩)]⟩,
          ⟨"abroad_plus", ["visa"], .ofList [("japan", ⟨["overseas_jp"], "abroad"⟩)]⟩]
      aliases := .ofList [("overseas_jp", "overseas"), ("pref_japan", "abroad")] }

/-- On a card without an override the option of the first product line is followed, in spite of the
alias, and the alias for its answer is not. What comes of it is known. -/
theorem resolve_closed_abroad :
    let settings : Settings :=
      { Settings.empty with
        preferences := .ofList [("travel_plus", "japan"), ("abroad_plus", "japan")] }
    let b : RuleBook Binary64 :=
      ⟨{ Scheme.empty with hierarchy := abroad.hierarchy, resolver := abroad.tables }, .empty⟩
    b.resolver = abroad ∧
      abroad.Resolves "visa" "overseas_jp" settings "pref_japan" ∧
      abroad.Resolves "red" "overseas_jp" settings "online" ∧
      abroad.Resolves "blue" "overseas_jp" settings "overseas" ∧
      abroad.tables.aliases.get? "pref_japan" = some "abroad" ∧
      "pref_japan" ∈ abroad.knownCategories ∧
      abroad.hierarchy.CountsAs "overseas" "travel" ∧ "travel" ∈ b.knownCategories := by
  intro settings b
  have heffective : abroad.resolve "visa" "overseas_jp" settings = "pref_japan" := by
    decide +kernel
  have hblue : abroad.resolve "blue" "overseas_jp" settings = "overseas" := by decide +kernel
  obtain ⟨hvisa, hknown, -, -⟩ := resolve_closed abroad "visa" "overseas_jp" settings
  obtain ⟨hred, -, -, -⟩ := resolve_closed abroad "red" "overseas_jp" settings
  obtain ⟨hother, -, -, haudit⟩ := resolve_closed abroad "blue" "overseas_jp" settings
  rw [heffective] at hknown
  have hcounts : abroad.hierarchy.CountsAs "overseas" "travel" :=
    Hierarchy.countsAs_iff.mpr (.inr (by decide +kernel))
  have hsame : b.resolver = abroad := rfl
  refine ⟨hsame, (hvisa _).mp heffective, (hred _).mp (by decide +kernel), (hother _).mp hblue,
    by decide +kernel, hknown.resolve_left (by decide), hcounts, ?_⟩
  exact (haudit Binary64 b hsame "travel" (hblue ▸ hcounts)).resolve_left (by decide)

end Resolver

end CardRewards
