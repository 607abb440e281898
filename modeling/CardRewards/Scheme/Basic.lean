import CardRewards.Scheme.Category
import CardRewards.Scheme.Program
import CardRewards.Scheme.RuleSpec

/-!
# Reward schemes

A scheme is everything that is configured: the cards, the rules they refer to by id, the category
tables, conversions, allocation, missions, campaigns and the tier program. It is loaded once and
never changes. Where an id is defined twice, the look-ups here find the first definition.

In the requirements (§6) a scheme is a `RewardConfig`.
-/

namespace CardRewards

/-- Everything that is configured. -/
structure Scheme (α : Type) where
  cards : List Card
  rules : List (RuleSpec α)
  /-- The known categories; when there are any, rules are checked against them. -/
  categories : List String
  hierarchy : Hierarchy
  resolver : ResolverTables
  conversions : Dict (Conversion α)
  allocation : Allocation
  missions : List (Mission α)
  campaigns : List Campaign
  tierProgram : Option (TierProgram α)
  /-- The period of counters for which none is given. -/
  defaultPeriod : Period
deriving DecidableEq

namespace Scheme

variable {α : Type}

/-- The scheme in which nothing is configured. -/
def empty : Scheme α :=
  ⟨[], [], [], .empty, .empty, .empty, .empty, [], [], none, .monthly⟩

instance : Inhabited (Scheme α) := ⟨empty⟩

/-- The card with an id. -/
def card? (s : Scheme α) (id : String) : Option Card := s.cards.find? (·.id = id)

/-- The rule with an id, as it is written. -/
def rule? (s : Scheme α) (id : String) : Option (RuleSpec α) := s.rules.find? (·.id = id)

/-- The mission with an id. -/
def mission? (s : Scheme α) (id : String) : Option (Mission α) := s.missions.find? (·.id = id)

/-- The cards that the customer holds, in order. -/
def ownedCards (s : Scheme α) : List Card := s.cards.filter (·.owned)

end Scheme

end CardRewards
