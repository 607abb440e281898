import CardRewards.Ledger
import CardRewards.Scheme.Card

/-!
# Quotes

A quote is what one card grants for one purchase: the rates of its rules line by line, their sum,
the reward in the card's own currency and its worth in cash and miles. It also carries what has to
be charged to which counters when the customer takes the card, so that booking a quote needs
nothing but the quote (`Quote.touchedKeys`).

A quote is shown in a display mode. `Quote.project` shows it in another one without evaluating
anything again.

In the requirements (§3) a quote is a `CardResult` and a line a `BreakdownEntry`. What is to be
charged is its cap tracking (`CapTracking`), its tier tracking and its mission tags; the worth in
a mode is the `estimate`, and `NoWorth` the `UnsupportedReason`.
-/

namespace CardRewards

/-- What became of a rule. -/
inductive LineStatus where
  /-- It applies in full. -/
  | active
  /-- A cap leaves a part of it. -/
  | partly
  /-- A cap leaves nothing of it. -/
  | capped
  /-- A mission has not come far enough. -/
  | locked
  /-- It cannot be evaluated. -/
  | unsupported
deriving DecidableEq, Repr

/-- A rule in a quote. -/
structure QuoteLine (α : Type) where
  ruleId : String
  label : String
  status : LineStatus
  rate : α
  note : Option String
deriving DecidableEq

/-- The cap counters that a purchase is charged to. Spending and rewards are never charged both. -/
inductive CapCharge (α : Type) where
  | none
  /-- The amount of the purchase counts towards a cap on spending. -/
  | spending (key : CounterKey)
  /-- A reward counts towards a cap on rewards, and towards a second one. -/
  | reward (key : CounterKey) (secondary : Option CounterKey) (amount : α)
deriving DecidableEq

namespace CapCharge

variable {α : Type}

instance : Inhabited (CapCharge α) := ⟨none⟩

/-- Whether no cap is charged. -/
def isNone : CapCharge α → Bool
  | none => true
  | _ => false

/-- Whether a cap on rewards is charged. -/
def isReward : CapCharge α → Bool
  | reward .. => true
  | _ => false

end CapCharge

/-- What a purchase means for a tier program. -/
structure TierCharge (α : Type) where
  programId : String
  /-- The reward that the program grants for it. -/
  reward : α
  /-- Whether it counts towards the next tier. -/
  qualifies : Bool
deriving DecidableEq

/-- What a purchase means for a mission. -/
structure MissionTag where
  missionId : String
  /-- Whether it counts for the mission. -/
  eligible : Bool
deriving DecidableEq

/-- Why a quote has no worth in a display mode. -/
inductive NoWorth where
  /-- The currency has no conversion. -/
  | missingConversion (currency : String)
  /-- A unit of the currency is worth nothing in the mode. -/
  | zeroConversion (mode : DisplayMode)
deriving DecidableEq

/-- What a card grants for a purchase. -/
structure Quote (α : Type) where
  cardId : String
  cardName : String
  amount : α
  rawCategory : String
  /-- What the raw category comes to on the card. -/
  category : String
  currency : String
  totalRate : α
  /-- The reward in the card's currency. -/
  nativeValue : α
  cashValue : α
  milesValue : α
  displayMode : DisplayMode
  displayValue : α
  lines : List (QuoteLine α)
  capCharge : CapCharge α
  tierCharge : Option (TierCharge α)
  missionTags : List MissionTag
  /-- The rule that took the place of the base rate. -/
  replacer : Option String
  /-- Why there is no worth in the display mode. -/
  noWorth : Option NoWorth
  conversion : Option (Conversion α)
deriving DecidableEq

namespace Quote

variable {α : Type}

/-- The worth in a mode. -/
def worth (q : Quote α) : DisplayMode → α
  | .cash => q.cashValue
  | .miles => q.milesValue

/-- Whether the quote has a worth in the mode that it is shown in. -/
def isSupported (q : Quote α) : Bool := q.noWorth.isNone

/-- The first line of a rule. -/
def line? (q : Quote α) (ruleId : String) : Option (QuoteLine α) :=
  q.lines.find? (·.ruleId = ruleId)

variable [Amount α]

/-- Why there is no worth in a mode. -/
def noWorthIn (q : Quote α) (mode : DisplayMode) : Option NoWorth :=
  match q.conversion with
  | none => some (.missingConversion q.currency)
  | some c => if Amount.isZero (c.factor mode) then some (.zeroConversion mode) else none

/-- Whether there is a worth in a mode. -/
def isSupportedIn (q : Quote α) (mode : DisplayMode) : Bool := (q.noWorthIn mode).isNone

/-- The same quote shown in a mode. -/
def project (q : Quote α) (mode : DisplayMode) : Quote α :=
  { q with displayMode := mode, displayValue := q.worth mode, noWorth := q.noWorthIn mode }

/-- The cap counters that a charge names. -/
def capKeys : CapCharge α → List CounterKey
  | .none => []
  | .spending key => [key]
  | .reward key secondary _ => key :: secondary.toList

/-- The counters of a tier program that a purchase moves. -/
def tierKeys (charge : Option (TierCharge α)) : List CounterKey :=
  match charge with
  | none => []
  | some t =>
    (if 0 < t.reward then [.tierReward t.programId] else []) ++
      if t.qualifies then [.tierSpend t.programId] else []

/-- The counters of missions that a purchase moves. -/
def missionKeys (tags : List MissionTag) : List CounterKey :=
  tags.flatMap fun tag =>
    .missionTotal tag.missionId :: if tag.eligible then [.missionEligible tag.missionId] else []

/-- The counters that booking the quote moves, in the order in which they are written. -/
def touchedKeys (q : Quote α) : List CounterKey :=
  .cardSpend q.cardId :: capKeys q.capCharge ++ tierKeys q.tierCharge ++ missionKeys q.missionTags

end Quote

end CardRewards
