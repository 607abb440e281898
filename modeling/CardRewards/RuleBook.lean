import CardRewards.Category.Resolve
import CardRewards.Rule.Conflict
import CardRewards.Scheme.Basic

/-!
# Rule books

A rule book is a scheme ready for evaluation: its rules have been checked, by themselves and
against each other, and its categories can be resolved. Building one never fails, because a rule
with a defect is a rule too.

In the requirements (§2, component 7) a rule book is the rule catalog, `RewardCatalog`, and the
rules in it are compiled.
-/

namespace CardRewards

/-- A scheme with its rules checked. -/
structure RuleBook (α : Type) where
  scheme : Scheme α
  rules : Dict (Rule α)
deriving DecidableEq

namespace RuleBook

variable {α : Type}

/-- The rule book of a scheme. -/
def ofScheme [Amount α] (scheme : Scheme α) : RuleBook α := ⟨scheme, Rule.compileAll scheme.rules⟩

/-- How categories are found. -/
def resolver (b : RuleBook α) : Resolver := ⟨b.scheme.hierarchy, b.scheme.resolver⟩

/-- The checked rule with an id. -/
def rule? (b : RuleBook α) (id : String) : Option (Rule α) := b.rules.get? id

/-- The rules of a card in order; an id without a rule has none. -/
def cardRules (b : RuleBook α) (card : Card) : List (String × Option (Rule α)) :=
  card.rules.map fun id => (id, b.rule? id)

/-- The ids of the rules that cannot be evaluated, in order. -/
def unsupportedIds (b : RuleBook α) : List String :=
  b.rules.toList.filterMap fun (id, rule) => if rule.isSupported then none else some id

/-- The rule book of a scheme keeps the scheme. -/
@[simp] theorem scheme_ofScheme [Amount α] (scheme : Scheme α) :
    (ofScheme scheme).scheme = scheme := rfl

end RuleBook

end CardRewards
