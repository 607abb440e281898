import CardRewards.Amount
import CardRewards.Text.Blank

/-!
# Cards and the worth of their rewards

A card grants rewards in a currency of its own. A conversion says what one unit of a currency is
worth, once in cash and once in miles, and a display mode picks one of the two.

In the requirements (§3) a card is a `CardProfile`, and the worth of its currency a
`ConversionEntry`.
-/

namespace CardRewards

/-- What the worth of a reward is shown in. -/
inductive DisplayMode where
  | cash
  | miles
deriving DecidableEq, Repr, Inhabited

namespace DisplayMode

/-- All modes in order. -/
def all : List DisplayMode := [cash, miles]

/-- The name of a mode. -/
def name : DisplayMode → String
  | cash => "cash"
  | miles => "miles"

/-- The mode of a name written exactly. -/
def ofName? (s : String) : Option DisplayMode := all.find? (·.name = s)

/-- The mode of a name, white space around it and the case of its letters aside. -/
def read? (s : String) : Option DisplayMode := ofName? (Text.fold s)

@[simp] theorem ofName?_name (m : DisplayMode) : ofName? m.name = some m := by cases m <;> rfl

end DisplayMode

/-- What a customer is told about the rewards of a card. -/
structure Redemption where
  /-- The name of the unit. -/
  unitLabel : String
  note : Option String
deriving DecidableEq

namespace Redemption

/-- Nothing told. -/
def none : Redemption := ⟨"", Option.none⟩

instance : Inhabited Redemption := ⟨none⟩

end Redemption

/-- A card. -/
structure Card where
  id : String
  name : String
  /-- The currency of its rewards. -/
  currency : String
  /-- The ids of its rules, in the order in which they apply. -/
  rules : List String
  redemption : Redemption
  /-- Whether the customer holds the card. -/
  owned : Bool
deriving DecidableEq

namespace Card

/-- A card that the customer holds, named by its id. -/
def held (id currency : String) (rules : List String) : Card :=
  ⟨id, id, currency, rules, .none, true⟩

end Card

/-- What one unit of a currency is worth. -/
structure Conversion (α : Type) where
  cashPerUnit : α
  milesPerUnit : α
deriving DecidableEq

namespace Conversion

variable {α : Type}

/-- The worth of a unit in a mode. -/
def factor (c : Conversion α) : DisplayMode → α
  | .cash => c.cashPerUnit
  | .miles => c.milesPerUnit

end Conversion

end CardRewards
