import CardRewards.Profile
import CardRewards.Quote.Basic

/-!
# Booking a quote

Booking a quote charges the purchase to the customer's counters and adds it to the totals. The
charges are written one after another (`Quote.charges`), each adding an amount to a counter; the
receipt lists every counter written with the value it then stood at. Nothing else of the profile
changes.

A reward is charged to its cap only when it is more than nothing.

In the requirements (§4.4) to book a quote is to commit a result: `LedgerCommitter` applies it to
the profile and gives a `CommitReceipt`. `Receipt.valueOf?` is `value_of`.
-/

namespace CardRewards

/-- An amount that a counter grows by. -/
structure Charge (α : Type) where
  key : CounterKey
  delta : α
deriving DecidableEq

namespace Quote

variable {α : Type} [Amount α]

/-- The charges to caps. -/
def capCharges (q : Quote α) : List (Charge α) :=
  match q.capCharge with
  | .none => []
  | .spending key => [⟨key, q.amount⟩]
  | .reward key secondary reward =>
    if 0 < reward then
      ⟨key, reward⟩ :: secondary.toList.map fun second => ⟨second, reward⟩
    else []

/-- The charges to the tier program. -/
def tierCharges (q : Quote α) : List (Charge α) :=
  match q.tierCharge with
  | none => []
  | some t =>
    (if 0 < t.reward then [⟨.tierReward t.programId, t.reward⟩] else []) ++
      if t.qualifies then [⟨.tierSpend t.programId, q.amount⟩] else []

/-- The charges to missions. -/
def missionCharges (q : Quote α) : List (Charge α) :=
  q.missionTags.flatMap fun tag =>
    ⟨.missionTotal tag.missionId, q.amount⟩ ::
      if tag.eligible then [⟨.missionEligible tag.missionId, q.amount⟩] else []

/-- All charges of a quote, in the order in which they are written. -/
def charges (q : Quote α) : List (Charge α) :=
  ⟨.cardSpend q.cardId, q.amount⟩ :: q.capCharges ++ q.tierCharges ++ q.missionCharges

end Quote

/-- What booking a quote did. -/
structure Receipt (α : Type) where
  cardId : String
  amount : α
  /-- The worth in the mode that the quote was shown in. -/
  value : α
  /-- The counters written, each with its value after that write. -/
  updated : List (CounterKey × α)
deriving DecidableEq

/-- The value listed for a counter, the first one if there are several. -/
def Receipt.valueOf? {α : Type} (r : Receipt α) (key : CounterKey) : Option α :=
  (r.updated.find? fun entry => entry.1 = key).map Prod.snd

namespace Ledger

variable {α : Type} [Amount α]

/-- Write charges one after another. -/
def post (l : Ledger α) (charges : List (Charge α)) : Ledger α :=
  charges.foldl (fun l charge => l.add charge.key charge.delta) l

/-- The counters that charges write, each with its value after that write. -/
def postings (l : Ledger α) : List (Charge α) → List (CounterKey × α)
  | [] => []
  | charge :: rest =>
    let l := l.add charge.key charge.delta
    (charge.key, l.get charge.key) :: postings l rest

@[simp] theorem keys_postings (charges : List (Charge α)) :
    ∀ l : Ledger α, (l.postings charges).map Prod.fst = charges.map (·.key) := by
  induction charges with
  | nil => intro l; rfl
  | cons charge rest ih =>
    intro l
    simp [postings, ih]

end Ledger

namespace Profile

variable {α : Type} [Amount α]

/-- The profile after a quote has been booked. -/
def book (p : Profile α) (q : Quote α) : Profile α where
  settings := p.settings
  ledger := p.ledger.post q.charges
  totals :=
    { spend := p.totals.spend + q.amount
      value := p.totals.value + q.displayValue
      count := p.totals.count + 1 }

/-- The receipt for booking a quote. -/
def receipt (p : Profile α) (q : Quote α) : Receipt α :=
  ⟨q.cardId, q.amount, q.displayValue, p.ledger.postings q.charges⟩

@[simp] theorem settings_book (p : Profile α) (q : Quote α) :
    (p.book q).settings = p.settings := rfl

end Profile

end CardRewards
