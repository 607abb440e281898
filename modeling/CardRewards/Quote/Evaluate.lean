import CardRewards.Quote.Contribution

/-!
# Evaluating a card

The quote of a card is put together from what its positions contribute: the lines in order, their
rates added up, the first charge of each sort, all mission tags. A charge to a cap on rewards goes
before one to a cap on spending.

Base rates are left out when some rule of the card replaces them, wherever it stands.

In the requirements (§4.2) this is `evaluate` of the rule evaluator; `replacer?` is its search for
a replacer.
-/

namespace CardRewards

namespace Quote

variable {α : Type}

/-- The lines of some contributions. -/
def linesOf (cs : List (Contribution α)) : List (QuoteLine α) := cs.filterMap (·.line)

/-- The mission tags of some contributions. -/
def tagsOf (cs : List (Contribution α)) : List MissionTag := cs.filterMap (·.missionTag)

/-- The charge to caps: the first reward charged, or else the first spending. -/
def capChargeOf (cs : List (Contribution α)) : CapCharge α :=
  match cs.findSome? (·.rewardCharge) with
  | some (key, secondary, amount) => .reward key secondary amount
  | none =>
    match cs.findSome? (·.spendingCharge) with
    | some key => .spending key
    | none => .none

/-- The charge to the tier program: the first one. -/
def tierChargeOf (cs : List (Contribution α)) : Option (TierCharge α) :=
  cs.findSome? (·.tierCharge)

/-- The rates of some lines added up in order. -/
def rateOf [Amount α] (lines : List (QuoteLine α)) : α :=
  lines.foldl (fun sum line => sum + line.rate) 0

end Quote

namespace RuleBook

variable {α : Type} [Amount α]

/-- The occasion of a purchase on a card. -/
def occasion (b : RuleBook α) (card : Card) (amount : α) (rawCategory : String)
    (ledger : Ledger α) (settings : Settings) : Occasion α where
  book := b
  category := b.resolver.resolve card.id rawCategory settings
  amount := amount
  ledger := ledger
  settings := settings

/-- The first rule of a card that takes the place of the base rate. -/
def replacer? (b : RuleBook α) (o : Occasion α) (card : Card) : Option (Rule α) :=
  ((b.cardRules card).filterMap (·.2)).find? o.isReplacedBy

/-- What the positions of a card contribute. -/
def contributions (b : RuleBook α) (o : Occasion α) (card : Card) : List (Contribution α) :=
  (b.cardRules card).map (o.contribution (b.replacer? o card).isSome)

/-- The quote of a card for a purchase. -/
def quote (b : RuleBook α) (card : Card) (amount : α) (rawCategory : String) (mode : DisplayMode)
    (ledger : Ledger α) (settings : Settings) : Quote α :=
  let o := b.occasion card amount rawCategory ledger settings
  let parts := b.contributions o card
  let lines := Quote.linesOf parts
  let totalRate := Quote.rateOf lines
  let nativeValue := totalRate * amount
  let conversion := b.scheme.conversions.get? card.currency
  let worth (mode : DisplayMode) : α :=
    match conversion with
    | some c => nativeValue * c.factor mode
    | none => 0
  let q : Quote α :=
    { cardId := card.id
      cardName := card.name
      amount, rawCategory
      category := o.category
      currency := card.currency
      totalRate, nativeValue
      cashValue := worth .cash
      milesValue := worth .miles
      displayMode := mode
      displayValue := 0
      lines
      capCharge := Quote.capChargeOf parts
      tierCharge := Quote.tierChargeOf parts
      missionTags := Quote.tagsOf parts
      replacer := (b.replacer? o card).map (·.id)
      noWorth := none
      conversion }
  q.project mode

end RuleBook

end CardRewards
