import CardRewards.Data.Dict

/-!
# Category tables

Purchases come with a raw category. A hierarchy says which categories a category also counts as,
and the resolver's tables say which category a purchase has on a given card.

In the requirements (§3, §4.1) these are the `CategoryHierarchy` and the `ResolverConfig`.
-/

namespace CardRewards

/-- The categories that a category also counts as. -/
structure Hierarchy where
  parents : Dict (List String)
  /-- Whether the parents of parents count as well. -/
  transitive : Bool
deriving DecidableEq

namespace Hierarchy

/-- No category counts as another. -/
def empty : Hierarchy := ⟨.empty, false⟩

instance : Inhabited Hierarchy := ⟨empty⟩

/-- The direct parents of a category. -/
def parentsOf (h : Hierarchy) (category : String) : List String :=
  (h.parents.get? category).getD []

/-- The hierarchy with one more parent. -/
def withParent (h : Hierarchy) (category parent : String) : Hierarchy :=
  { h with parents := h.parents.insert category (h.parentsOf category ++ [parent]) }

end Hierarchy

/-- What an option of a product line does: the raw categories it takes, and what they become. -/
structure PreferenceOption where
  categories : List String
  effective : String
deriving DecidableEq

/-- The options of a product line, which all its cards share. -/
structure PreferenceGroup where
  productLine : String
  cardIds : List String
  options : Dict PreferenceOption
deriving DecidableEq

/-- The tables by which the category of a purchase is found. -/
structure ResolverTables where
  /-- For each card, what its raw categories become. -/
  cardOverrides : Dict (Dict String)
  preferences : List PreferenceGroup
  /-- What a raw category becomes on every card. -/
  aliases : Dict String
deriving DecidableEq

namespace ResolverTables

/-- Every category is what it is. -/
def empty : ResolverTables := ⟨.empty, [], .empty⟩

instance : Inhabited ResolverTables := ⟨empty⟩

end ResolverTables

end CardRewards
