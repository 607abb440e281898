import CardRewards.Category.Ancestry
import CardRewards.Scheme.Program

/-!
# The category of a purchase

What category a purchase has depends on the card. An override of the card comes first; then the
option that the customer chose for the card's product line, if it takes the raw category; then the
alias of the raw category; and else the raw category itself. None of these is applied to the
result of another.

In the requirements (§4.1) this is the category resolver with `resolve` and `is_match`.
-/

namespace CardRewards

/-- The tables by which categories are found, with the hierarchy they refer to. -/
structure Resolver where
  hierarchy : Hierarchy
  tables : ResolverTables
deriving DecidableEq

namespace Resolver

/-- What a card's own table makes of a raw category. -/
def override? (r : Resolver) (card raw : String) : Option String :=
  (r.tables.cardOverrides.get? card).bind (·.get? raw)

/-- The option that applies to a card: the customer's choice for the first product line that the
card belongs to. -/
def chosenOption? (r : Resolver) (card : String) (settings : Settings) : Option PreferenceOption := do
  let group ← r.tables.preferences.find? (·.cardIds.contains card)
  let choice ← settings.preference? group.productLine
  group.options.get? choice

/-- What the chosen option makes of a raw category. -/
def preferred? (r : Resolver) (card raw : String) (settings : Settings) : Option String :=
  match r.chosenOption? card settings with
  | some option =>
    if r.hierarchy.isMatch option.categories raw then some option.effective else none
  | none => none

/-- The category of a purchase on a card. -/
def resolve (r : Resolver) (card raw : String) (settings : Settings) : String :=
  match r.override? card raw with
  | some category => category
  | none =>
    match r.preferred? card raw settings with
    | some category => category
    | none => (r.tables.aliases.get? raw).getD raw

/-- The first bucket that a category belongs to. -/
def bucketOf? (r : Resolver) (allocation : Allocation) (category : String) : Option Bucket :=
  (allocation.buckets.toList.find? fun entry => r.hierarchy.isMatch entry.2 category).map Prod.fst

/-- All categories that the tables speak of, sorted, each of them once. -/
def knownCategories (r : Resolver) : List String :=
  let ofHierarchy := r.hierarchy.parents.toList.flatMap fun (c, parents) => c :: parents
  let ofOverrides := r.tables.cardOverrides.values.flatMap fun overrides =>
    overrides.toList.flatMap fun (raw, effective) => [raw, effective]
  let ofAliases := r.tables.aliases.toList.flatMap fun (raw, name) => [raw, name]
  let ofPreferences := r.tables.preferences.flatMap fun group =>
    group.options.values.flatMap fun option => option.categories ++ [option.effective]
  Text.sortedSet (ofHierarchy ++ ofOverrides ++ ofAliases ++ ofPreferences)

end Resolver

end CardRewards
