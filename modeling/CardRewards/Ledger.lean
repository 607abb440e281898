import CardRewards.Amount
import CardRewards.Data.Dict

/-!
# The usage ledger

The ledger is what a customer has used up so far: for each counter an amount of spending or of
rewards granted. A counter that was never written counts as zero. Counters are named by keys.
A cap names its own counters (`CounterKey.configured`); the counters of cards, missions and tier
programs have generated keys, made from the id and words around it that keep them apart.

In the requirements (§3) the ledger is the `UsageLedger`, and the key of a counter a `UsageKey`.
-/

namespace CardRewards

/-- The name of a counter. -/
structure CounterKey where
  text : String
deriving DecidableEq, Inhabited

namespace CounterKey

/-- A key written in a scheme: of a cap, or of a mission gate. -/
def configured (key : String) : CounterKey := ⟨key⟩

/-- What has been spent on a card. -/
def cardSpend (card : String) : CounterKey := ⟨"card_spend:" ++ card⟩

/-- What has been spent under a mission, whether it counts for it or not. -/
def missionTotal (mission : String) : CounterKey := ⟨"mission:" ++ mission ++ ":total"⟩

/-- What has been spent that counts for a mission. -/
def missionEligible (mission : String) : CounterKey := ⟨"mission:" ++ mission ++ ":eligible"⟩

/-- What a tier program has granted. -/
def tierReward (program : String) : CounterKey := ⟨"tier:" ++ program ++ ":reward"⟩

/-- What has been spent in the category that a tier program favours. -/
def tierSpend (program : String) : CounterKey := ⟨"tier:" ++ program ++ ":spend"⟩

end CounterKey

/-- The amounts used so far, by counter. -/
structure Ledger (α : Type) where
  counters : Dict α

namespace Ledger

variable {α : Type}

/-- The ledger in which nothing has been used. -/
def empty : Ledger α := ⟨.empty⟩

instance : Inhabited (Ledger α) := ⟨empty⟩
instance [DecidableEq α] : DecidableEq (Ledger α) := fun a b =>
  decidable_of_iff (a.counters = b.counters) ⟨fun h => by cases a; cases b; cases h; rfl, (· ▸ rfl)⟩

/-- The counters and their amounts, in the order of the keys. -/
def toList (l : Ledger α) : List (CounterKey × α) :=
  l.counters.toList.map fun entry => (⟨entry.1⟩, entry.2)

/-- Whether a counter has been written. -/
def contains (l : Ledger α) (key : CounterKey) : Bool := l.counters.contains key.text

/-- How many counters have been written. -/
def size (l : Ledger α) : Nat := l.counters.size

/-- Whether no counter has been written. -/
def isEmpty (l : Ledger α) : Bool := l.counters.isEmpty

variable [Amount α]

/-- What a counter stands at. -/
def get (l : Ledger α) (key : CounterKey) : α := (l.counters.get? key.text).getD 0

/-- Let a counter grow by an amount. -/
def add (l : Ledger α) (key : CounterKey) (delta : α) : Ledger α :=
  ⟨l.counters.insert key.text (l.get key + delta)⟩

/-- Set a counter back to zero. -/
def reset (l : Ledger α) (key : CounterKey) : Ledger α := ⟨l.counters.insert key.text 0⟩

theorem get_add (l : Ledger α) (key other : CounterKey) (delta : α) :
    (l.add key delta).get other = if other = key then l.get key + delta else l.get other := by
  cases key
  cases other
  simp only [get, add, Dict.get?_insert, CounterKey.mk.injEq]
  split <;> rfl

theorem get_reset (l : Ledger α) (key other : CounterKey) :
    (l.reset key).get other = if other = key then 0 else l.get other := by
  cases key
  cases other
  simp only [get, reset, Dict.get?_insert, CounterKey.mk.injEq]
  split <;> rfl

theorem contains_add (l : Ledger α) (key other : CounterKey) (delta : α) :
    (l.add key delta).contains other = (other == key || l.contains other) := by
  rcases Decidable.em (other = key) with rfl | h
  · simp [contains, add, Dict.contains]
  · have : other.text ≠ key.text := fun e => h (by cases other; cases key; cases e; rfl)
    simp [contains, add, Dict.contains, Dict.get?_insert, this, h]

theorem contains_reset (l : Ledger α) (key other : CounterKey) :
    (l.reset key).contains other = (other == key || l.contains other) := by
  rcases Decidable.em (other = key) with rfl | h
  · simp [contains, reset, Dict.contains]
  · have : other.text ≠ key.text := fun e => h (by cases other; cases key; cases e; rfl)
    simp [contains, reset, Dict.contains, Dict.get?_insert, this, h]

end Ledger

end CardRewards
