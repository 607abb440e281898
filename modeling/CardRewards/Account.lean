import CardRewards.Fault
import CardRewards.Posting
import CardRewards.Quote.Evaluate
import CardRewards.Quote.Rank
import CardRewards.Tier

/-!
# Accounts

An account is a profile in memory beside the store that keeps it. Everything that changes a profile
goes through `Account.settle`: the new profile is handed to the store first, and becomes the
current one only if the store took it. So an operation that fails leaves the profile in memory as
it was, whatever the reason.

What a rule book does for an account is here as well: quotes for one card or for all cards held,
booking, and the move to the next tier. Quotes are refused for an amount that is not a positive
finite number, then for weights over the budget, then for a card that does not exist.

In the requirements the store is the `ProfileStore` (§6), and what a rule book does for an account
is the engine facade: `evaluate_all`, `evaluate_card`, `commit` and `advance_tier`. To book a
quote is to commit a result (§4.4).
-/

namespace CardRewards

/-- A place where a profile is kept. Saving may fail, and may leave traces even then. -/
class ProfileStore (σ : Type) (α : outParam Type) where
  load : σ → Except (Fault α) (Profile α)
  save : σ → Profile α → Except (Fault α) Unit × σ

/-- A store in memory, which takes every profile. -/
structure MemoryStore (α : Type) where
  snapshot : Profile α
deriving DecidableEq

instance {α : Type} : ProfileStore (MemoryStore α) α where
  load store := .ok store.snapshot
  save _ profile := (.ok (), ⟨profile⟩)

/-- A store that refuses profiles for as long as it has a reason to. -/
structure Refusing (σ : Type) where
  store : σ
  reason : Option String

instance {σ α : Type} [ProfileStore σ α] : ProfileStore (Refusing σ) α where
  load s := ProfileStore.load s.store
  save s profile :=
    match s.reason with
    | some reason => (.error (.notStored (.refused reason)), s)
    | none =>
      let (result, store) := ProfileStore.save s.store profile
      (result, { s with store })

/-- A profile in memory and the store that keeps it. -/
structure Account (σ α : Type) where
  profile : Profile α
  store : σ

namespace Account

variable {σ α β : Type} [ProfileStore σ α]

/-- Make a profile the current one, if the store takes it. -/
def settle (a : Account σ α) (profile : Profile α) (answer : β) :
    Except (Fault α) β × Account σ α :=
  match ProfileStore.save a.store profile with
  | (.ok (), store) => (.ok answer, ⟨profile, store⟩)
  | (.error fault, store) => (.error fault, { a with store })

end Account

namespace RuleBook

variable {σ α : Type} [Amount α]

/-- Whether a purchase can be evaluated for a profile. -/
def vet (b : RuleBook α) (amount : α) (profile : Profile α) : Except (Fault α) Unit :=
  if !Amount.isFinite amount || amount ≤ 0 then .error (.invalidAmount amount)
  else
    let budget := b.scheme.allocation.budget
    if profile.settings.withinBudget budget then .ok ()
    else .error (.overAllocated profile.settings.allocated budget)

/-- The quotes of all cards held, ranked for the mode. -/
def quoteAll (b : RuleBook α) (amount : α) (rawCategory : String) (mode : DisplayMode)
    (profile : Profile α) : Except (Fault α) (List (Quote α)) := do
  b.vet amount profile
  .ok (Quote.rank
    (b.scheme.ownedCards.map fun card =>
      b.quote card amount rawCategory mode profile.ledger profile.settings) mode)

/-- The quote of a card, whether it is held or not. -/
def quoteCard (b : RuleBook α) (cardId : String) (amount : α) (rawCategory : String)
    (mode : DisplayMode) (profile : Profile α) : Except (Fault α) (Quote α) := do
  b.vet amount profile
  match b.scheme.card? cardId with
  | some card => .ok (b.quote card amount rawCategory mode profile.ledger profile.settings)
  | none => .error (.cardNotFound cardId)

variable [ProfileStore σ α]

/-- Book a quote. -/
def commit (b : RuleBook α) (a : Account σ α) (q : Quote α) :
    Except (Fault α) (Receipt α) × Account σ α :=
  match b.scheme.card? q.cardId with
  | some _ => a.settle (a.profile.book q) (a.profile.receipt q)
  | none => (.error (.cardNotFound q.cardId), a)

/-- Move the customer to the next tier. -/
def advanceTier (b : RuleBook α) (a : Account σ α) : Except (Fault α) TierStep × Account σ α :=
  match b.scheme.tierProgram with
  | some program =>
    a.settle (program.advance a.profile) (program.stepFrom a.profile.settings.tierLevel)
  | none => (.error .tierProgramMissing, a)

end RuleBook

end CardRewards
