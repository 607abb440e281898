import CardRewards.Ledger

/-!
# Customer profiles

A profile is all that is remembered about a customer: the settings they chose, the ledger of what
they have used, and running totals. It is read and stored as one piece.

A customer may spread a budget of weights over five buckets of categories. A table on buckets
(`BucketTable`) has one place for each, listed in the order in which the buckets are declared.

In the requirements (§3) the totals are the `Stats`, and a bucket an `AllocationBucket`.
-/

namespace CardRewards

/-- The groups of categories that weights can be put on. -/
inductive Bucket where
  | dining
  | online
  | travel
  | overseas
  | entertainment
deriving DecidableEq, Repr

namespace Bucket

/-- All buckets in order. -/
def all : List Bucket := [dining, online, travel, overseas, entertainment]

/-- The name of a bucket. -/
def name : Bucket → String
  | dining => "dining"
  | online => "online"
  | travel => "travel"
  | overseas => "overseas"
  | entertainment => "entertainment"

/-- The bucket of a name. -/
def ofName? (s : String) : Option Bucket := all.find? (·.name = s)

@[simp] theorem ofName?_name (b : Bucket) : ofName? b.name = some b := by cases b <;> rfl

end Bucket

/-- At most one value for each bucket. -/
structure BucketTable (V : Type) where
  dining : Option V
  online : Option V
  travel : Option V
  overseas : Option V
  entertainment : Option V
deriving DecidableEq

namespace BucketTable

variable {V : Type}

/-- The table without values. -/
def empty : BucketTable V := ⟨none, none, none, none, none⟩

instance : Inhabited (BucketTable V) := ⟨empty⟩

/-- The value of a bucket. -/
def get? (t : BucketTable V) : Bucket → Option V
  | .dining => t.dining
  | .online => t.online
  | .travel => t.travel
  | .overseas => t.overseas
  | .entertainment => t.entertainment

/-- Give a bucket a value. -/
def insert (t : BucketTable V) (b : Bucket) (value : V) : BucketTable V :=
  match b with
  | .dining => { t with dining := some value }
  | .online => { t with online := some value }
  | .travel => { t with travel := some value }
  | .overseas => { t with overseas := some value }
  | .entertainment => { t with entertainment := some value }

/-- The buckets that have a value, in order. -/
def toList (t : BucketTable V) : List (Bucket × V) :=
  Bucket.all.filterMap fun b => (t.get? b).map fun value => (b, value)

/-- The table of a listing; of several values for one bucket the last counts. -/
def ofList (entries : List (Bucket × V)) : BucketTable V :=
  entries.foldl (fun t entry => t.insert entry.1 entry.2) empty

theorem get?_insert (t : BucketTable V) (b other : Bucket) (value : V) :
    (t.insert b value).get? other = if other = b then some value else t.get? other := by
  cases b <;> cases other <;> rfl

end BucketTable

/-- What a customer chose. -/
structure Settings where
  /-- Promotions signed up for. -/
  toggles : Dict Bool
  /-- The weights put on buckets. -/
  allocation : BucketTable UInt32
  /-- The tier reached; zero before the first. -/
  tierLevel : UInt8
  /-- The option chosen for each product line. -/
  preferences : Dict String
deriving DecidableEq

namespace Settings

/-- Nothing chosen. -/
def empty : Settings := ⟨.empty, .empty, 0, .empty⟩

instance : Inhabited Settings := ⟨empty⟩

/-- Whether a promotion has been signed up for. -/
def isEnabled (s : Settings) (toggle : String) : Bool := (s.toggles.get? toggle).getD false

/-- The weight put on a bucket. -/
def weight (s : Settings) (b : Bucket) : UInt32 := (s.allocation.get? b).getD 0

/-- The sum of all weights. -/
def allocated (s : Settings) : Nat :=
  s.allocation.toList.foldr (fun entry total => entry.2.toNat + total) 0

/-- The option chosen for a product line. -/
def preference? (s : Settings) (productLine : String) : Option String :=
  s.preferences.get? productLine

/-- Whether the weights stay within a budget. -/
def withinBudget (s : Settings) (budget : UInt32) : Bool := decide (s.allocated ≤ budget.toNat)

end Settings

/-- Running totals over all purchases. -/
structure Totals (α : Type) where
  spend : α
  /-- The rewards, each valued as it was shown when it was booked. -/
  value : α
  /-- How many purchases. It wraps around at 2⁶⁴, as in a release build, where overflow is not
  checked. -/
  count : UInt64
deriving DecidableEq

/-- All that is remembered about a customer. -/
structure Profile (α : Type) where
  settings : Settings
  ledger : Ledger α
  totals : Totals α
deriving DecidableEq

namespace Profile

variable {α : Type} [Amount α]

/-- The profile of a new customer. -/
def empty : Profile α := ⟨.empty, .empty, ⟨0, 0, 0⟩⟩

instance : Inhabited (Profile α) := ⟨empty⟩

end Profile

end CardRewards
