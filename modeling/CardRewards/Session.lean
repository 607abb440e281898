import CardRewards.Account

/-!
# Sessions

A session is a sequence of steps on one account with one rule book: quotes are asked for, kept,
ranked again and booked, settings and counters are changed in memory, the profile is read back from
its store. `Session.run` takes one step. What a step fails with is its answer; the session goes on.
-/

namespace CardRewards

/-- An account at work with a rule book, and the quotes last asked for. -/
structure Session (σ α : Type) where
  book : RuleBook α
  account : Account σ α
  quotes : List (Quote α)

/-- A purchase as it is asked about. -/
structure Purchase (α : Type) where
  category : String
  amount : α
  mode : DisplayMode

/-- A step of a session. -/
inductive Step (α : Type) where
  | quoteAll (purchase : Purchase α)
  | quoteCard (card : String) (purchase : Purchase α)
  | rank (mode : DisplayMode)
  /-- The counters that booking a kept quote would move. -/
  | touched (index : Nat)
  | commitCard (card : String) (purchase : Purchase α)
  | commitBest (purchase : Purchase α)
  /-- Book a kept quote as it is. -/
  | commitKept (index : Nat)
  | commitQuote (quote : Quote α)
  | advanceTier
  | choose (settings : Settings)
  | reset (key : CounterKey)
  /-- Read the stored profile. -/
  | stored
  /-- Make the stored profile the current one. -/
  | reload

/-- What a step comes to. -/
inductive StepAnswer (α : Type) where
  | done
  | quotes (quotes : List (Quote α))
  | quote (quote : Quote α)
  | keys (keys : List CounterKey)
  | receipt (receipt : Receipt α)
  | tierStep (step : TierStep)
  | profile (profile : Profile α)

/-- Why a step fails. -/
inductive StepFault (α : Type) where
  | fault (fault : Fault α)
  /-- There is no quote to work on. -/
  | noQuote

namespace Session

variable {σ α : Type} [Amount α] [ProfileStore σ α]

/-- The quotes of all cards held for a purchase. -/
def quotesFor (s : Session σ α) (p : Purchase α) : Except (Fault α) (List (Quote α)) :=
  s.book.quoteAll p.amount p.category p.mode s.account.profile

/-- The quote of a card for a purchase. -/
def quoteFor (s : Session σ α) (card : String) (p : Purchase α) : Except (Fault α) (Quote α) :=
  s.book.quoteCard card p.amount p.category p.mode s.account.profile

/-- Book a quote. -/
def bookQuote (s : Session σ α) (q : Quote α) : Except (StepFault α) (StepAnswer α) × Session σ α :=
  let (result, account) := s.book.commit s.account q
  ((result.map .receipt).mapError .fault, { s with account })

/-- Take a step. -/
def run (s : Session σ α) : Step α → Except (StepFault α) (StepAnswer α) × Session σ α
  | .quoteAll p =>
    match s.quotesFor p with
    | .ok quotes => (.ok (.quotes quotes), { s with quotes })
    | .error fault => (.error (.fault fault), s)
  | .quoteCard card p =>
    match s.quoteFor card p with
    | .ok quote => (.ok (.quote quote), { s with quotes := [quote] })
    | .error fault => (.error (.fault fault), s)
  | .rank mode =>
    let quotes := Quote.rank s.quotes mode
    (.ok (.quotes quotes), { s with quotes })
  | .touched index =>
    match s.quotes[index]? with
    | some quote => (.ok (.keys quote.touchedKeys), s)
    | none => (.error .noQuote, s)
  | .commitCard card p =>
    match s.quoteFor card p with
    | .ok quote => s.bookQuote quote
    | .error fault => (.error (.fault fault), s)
  | .commitBest p =>
    match s.quotesFor p with
    | .error fault => (.error (.fault fault), s)
    | .ok quotes =>
      let s := { s with quotes }
      match quotes with
      | best :: _ => s.bookQuote best
      | [] => (.error .noQuote, s)
  | .commitKept index =>
    match s.quotes[index]? with
    | some quote => s.bookQuote quote
    | none => (.error .noQuote, s)
  | .commitQuote quote => s.bookQuote quote
  | .advanceTier =>
    let (result, account) := s.book.advanceTier s.account
    ((result.map .tierStep).mapError .fault, { s with account })
  | .choose settings =>
    let profile := { s.account.profile with settings }
    (.ok .done, { s with account := { s.account with profile } })
  | .reset key =>
    let profile := s.account.profile
    let profile := { profile with ledger := profile.ledger.reset key }
    (.ok .done, { s with account := { s.account with profile } })
  | .stored =>
    match ProfileStore.load s.account.store with
    | .ok profile => (.ok (.profile profile), s)
    | .error fault => (.error (.fault fault), s)
  | .reload =>
    match ProfileStore.load s.account.store with
    | .ok profile => (.ok .done, { s with account := { s.account with profile } })
    | .error fault => (.error (.fault fault), s)

end Session

end CardRewards
