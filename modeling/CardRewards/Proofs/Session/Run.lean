import CardRewards.Session

/-!
# Runs of a session

What steps do one after another (`Session.after`), and which quotes they book (`Session.bookings`).

Most steps work on the profile as it stands: they evaluate it and book what they evaluated, change
the settings, move up a tier or set a counter back. The others are stale: they book a quote from
before, or bring back an older profile. `moves_run` says all that a step that is not stale can do to
a profile, whatever the store does; what holds along every run of such steps follows from it.
-/

namespace CardRewards

namespace Step

variable {α : Type}

/-- Whether a step may work on something from before: a quote, or a stored profile. -/
def isStale : Step α → Bool
  | commitKept _ | commitQuote _ | reload => true
  | _ => false

/-- Whether a step may set counters back. -/
def resets : Step α → Bool
  | advanceTier | reset _ => true
  | _ => false

end Step

namespace RuleBook

variable {α : Type} [Amount α]

/-- What a step makes of a profile that it finds, and the quote that it books. -/
inductive Moves (b : RuleBook α) (p : Profile α) : Step α → Option (Quote α) → Profile α → Prop
  | idle (step : Step α) : Moves b p step none p
  | booked (step : Step α) (card : Card) (amount : α) (rawCategory : String) (mode : DisplayMode)
      (listed : card ∈ b.scheme.cards) (vetted : b.vet amount p = .ok ()) :
      Moves b p step (some (b.quote card amount rawCategory mode p.ledger p.settings))
        (p.book (b.quote card amount rawCategory mode p.ledger p.settings))
  | chosen (settings : Settings) : Moves b p (.choose settings) none { p with settings }
  | advanced (program : TierProgram α) (offered : b.scheme.tierProgram = some program) :
      Moves b p .advanceTier none (program.advance p)
  | reset (key : CounterKey) : Moves b p (.reset key) none { p with ledger := p.ledger.reset key }

/-- A quote evaluated for a card of the scheme and an amount that is more than nothing. -/
def Evaluates (b : RuleBook α) (q : Quote α) : Prop :=
  ∃ card ∈ b.scheme.cards, ∃ amount rawCategory mode ledger settings,
    ¬ amount ≤ 0 ∧ q = b.quote card amount rawCategory mode ledger settings

/-! ## Quotes for a profile -/

variable {b : RuleBook α} {amount : α} {rawCategory : String} {mode : DisplayMode} {p : Profile α}

/-- An amount that is vetted is more than nothing. -/
theorem not_le_zero_of_vet (h : b.vet amount p = .ok ()) : ¬ amount ≤ 0 := by
  intro hle
  simp [vet, hle] at h

theorem of_quoteCard {id : String} {q : Quote α}
    (h : b.quoteCard id amount rawCategory mode p = .ok q) :
    b.vet amount p = .ok () ∧ ∃ card ∈ b.scheme.cards,
      q = b.quote card amount rawCategory mode p.ledger p.settings := by
  unfold quoteCard at h
  cases hvet : b.vet amount p with
  | error fault => simp [hvet, bind, Except.bind] at h
  | ok =>
    simp only [hvet, bind, Except.bind] at h
    split at h
    next card hcard =>
      exact ⟨rfl, card, List.mem_of_find?_eq_some hcard, (Except.ok.inj h).symm⟩
    next => simp at h

/-- Every quote of a ranking is one that was evaluated: evaluation has shown it in the mode of the
ranking already. -/
theorem of_mem_quoteAll {quotes : List (Quote α)} {q : Quote α}
    (h : b.quoteAll amount rawCategory mode p = .ok quotes) (hq : q ∈ quotes) :
    b.vet amount p = .ok () ∧ ∃ card ∈ b.scheme.cards,
      q = b.quote card amount rawCategory mode p.ledger p.settings := by
  unfold quoteAll at h
  cases hvet : b.vet amount p with
  | error fault => simp [hvet, bind, Except.bind] at h
  | ok =>
    simp only [hvet, bind, Except.bind, Except.ok.injEq] at h
    rw [← h] at hq
    obtain ⟨q', hq', rfl⟩ := List.mem_map.mp (List.mem_mergeSort.mp hq)
    obtain ⟨card, hcard, rfl⟩ := List.mem_map.mp hq'
    exact ⟨rfl, card, (List.mem_filter.mp hcard).1, rfl⟩

end RuleBook

namespace Session

variable {σ α : Type} [Amount α] [ProfileStore σ α]

/-- The quote that a step sets out to book. -/
def picked? (s : Session σ α) : Step α → Option (Quote α)
  | .commitCard card p => (s.quoteFor card p).toOption
  | .commitBest p => (s.quotesFor p).toOption.bind List.head?
  | .commitKept index => s.quotes[index]?
  | .commitQuote quote => some quote
  | _ => none

/-- The quote that a step books: the one that it sets out to book, if the step succeeds. -/
def booked? (s : Session σ α) (step : Step α) : Option (Quote α) :=
  if (s.run step).1.isOk then s.picked? step else none

/-- The session after some steps. -/
def after (s : Session σ α) (steps : List (Step α)) : Session σ α :=
  steps.foldl (fun s step => (s.run step).2) s

/-- The quotes that some steps book, in order. -/
def bookings (s : Session σ α) : List (Step α) → List (Quote α)
  | [] => []
  | step :: rest => (s.booked? step).toList ++ bookings (s.run step).2 rest

/-! ## One step -/

/-- No step changes the rule book. -/
theorem book_run (s : Session σ α) (step : Step α) : (s.run step).2.book = s.book := by
  cases step <;> simp only [run, bookQuote] <;> repeat (first | rfl | split)

theorem book_after (steps : List (Step α)) :
    ∀ s : Session σ α, (s.after steps).book = s.book := by
  induction steps with
  | nil => intro s; rfl
  | cons step rest ih => intro s; exact (ih (s.run step).2).trans (book_run s step)

omit [Amount α] in
/-- A profile that is handed to the store is taken over if the store takes it, and only then. -/
theorem profile_settle {β : Type} (a : Account σ α) (p : Profile α) (answer : β) :
    (a.settle p answer).2.profile = if (a.settle p answer).1.isOk then p else a.profile := by
  unfold Account.settle
  rcases ProfileStore.save a.store p with ⟨saved, store⟩
  cases saved <;> rfl

omit [Amount α] [ProfileStore σ α] in
/-- An answer is put into words without a change of whether it is one. -/
theorem isOk_answer {β : Type} (result : Except (Fault α) β) (f : β → StepAnswer α) :
    ((result.map f).mapError StepFault.fault).isOk = result.isOk := by
  cases result <;> rfl

/-- Booking a quote succeeds and adds it to the profile, or fails and leaves the profile alone. -/
theorem profile_commit (b : RuleBook α) (a : Account σ α) (q : Quote α) :
    (b.commit a q).2.profile = if (b.commit a q).1.isOk then a.profile.book q else a.profile := by
  unfold RuleBook.commit
  cases b.scheme.card? q.cardId with
  | none => rfl
  | some card => exact profile_settle _ _ _

theorem profile_bookQuote (s : Session σ α) (q : Quote α) :
    (s.bookQuote q).2.account.profile =
      if (s.bookQuote q).1.isOk then s.account.profile.book q else s.account.profile := by
  show (s.book.commit s.account q).2.profile =
    if (((s.book.commit s.account q).1.map _).mapError _).isOk then _ else _
  rw [isOk_answer]
  exact profile_commit s.book s.account q

section

variable {s : Session σ α} {step : Step α}

/-- A step that books nothing and leaves the account alone. -/
theorem moves_of_account_eq (hpicked : s.picked? step = none)
    (haccount : (s.run step).2.account = s.account) :
    s.book.Moves s.account.profile step (s.booked? step) (s.run step).2.account.profile := by
  rw [haccount, booked?, hpicked, ite_self]
  exact .idle step

/-- A step that books a quote evaluated for the profile that it finds. -/
theorem moves_of_bookQuote {q : Quote α} {p : Purchase α} (quotes : List (Quote α))
    (hpicked : s.picked? step = some q) (hrun : s.run step = bookQuote { s with quotes } q)
    (hquote : s.book.vet p.amount s.account.profile = .ok () ∧ ∃ card ∈ s.book.scheme.cards,
      q = s.book.quote card p.amount p.category p.mode s.account.profile.ledger
        s.account.profile.settings) :
    s.book.Moves s.account.profile step (s.booked? step) (s.run step).2.account.profile := by
  obtain ⟨hvet, card, hcard, rfl⟩ := hquote
  rw [booked?, hrun, profile_bookQuote, hpicked]
  split
  next => exact .booked step card p.amount p.category p.mode hcard hvet
  next => exact .idle step

/-- **All that a step can do to a profile**, unless it is stale: leave it alone, book a quote
evaluated for it, or change its settings, its tier or one counter. -/
theorem moves_run (h : step.isStale = false) :
    s.book.Moves s.account.profile step (s.booked? step) (s.run step).2.account.profile := by
  cases step with
  | commitCard card p =>
    cases hquote : s.quoteFor card p with
    | error fault =>
      exact moves_of_account_eq (by simp [picked?, hquote, Except.toOption])
        (by simp [run, hquote])
    | ok q =>
      exact moves_of_bookQuote s.quotes (by simp [picked?, hquote, Except.toOption])
        (by simp only [run, hquote]) (RuleBook.of_quoteCard hquote)
  | commitBest p =>
    cases hquotes : s.quotesFor p with
    | error fault =>
      exact moves_of_account_eq (by simp [picked?, hquotes, Except.toOption])
        (by simp [run, hquotes])
    | ok quotes =>
      cases quotes with
      | nil =>
        exact moves_of_account_eq (by simp [picked?, hquotes, Except.toOption])
          (by simp [run, hquotes])
      | cons best rest =>
        -- the ranking has shown the quotes in the mode that they were evaluated in
        exact moves_of_bookQuote (best :: rest) (by simp [picked?, hquotes, Except.toOption])
          (by simp only [run, hquotes])
          (RuleBook.of_mem_quoteAll hquotes (List.mem_cons_self ..))
  | advanceTier =>
    have hnone : s.booked? .advanceTier = none := by simp [booked?, picked?]
    rw [hnone]
    simp only [run, RuleBook.advanceTier, Account.settle]
    split
    next program hprogram =>
      split
      next => exact .advanced program hprogram
      next => exact .idle _
    next => exact .idle _
  | choose settings => exact .chosen settings
  | reset key => exact .reset key
  | quoteAll p => exact moves_of_account_eq rfl (by simp only [run]; split <;> rfl)
  | quoteCard card p => exact moves_of_account_eq rfl (by simp only [run]; split <;> rfl)
  | rank mode => exact moves_of_account_eq rfl rfl
  | touched index => exact moves_of_account_eq rfl (by simp only [run]; split <;> rfl)
  | stored => exact moves_of_account_eq rfl (by simp only [run]; split <;> rfl)
  | commitKept | commitQuote | reload => simp [Step.isStale] at h

end

/-! ## Many steps -/

/-- What holds of the quotes booked so far together with the profile at hand, and survives every
move, holds after every run of steps that are not stale. -/
theorem bookings_induction {P : List (Quote α) → Profile α → Prop} {b : RuleBook α} :
    ∀ (before : List (Quote α)) {steps : List (Step α)} {s : Session σ α}, s.book = b →
      (∀ step ∈ steps, step.isStale = false) →
      (∀ step ∈ steps, ∀ qs p booked p', b.Moves p step booked p' → P qs p →
        P (qs ++ booked.toList) p') →
      P before s.account.profile →
      P (before ++ s.bookings steps) (s.after steps).account.profile
  | before, [], s, _, _, _, h => by
    rw [bookings, List.append_nil]
    exact h
  | before, step :: rest, s, hbook, hfresh, hmove, h => by
    -- what the first step books joins the quotes booked before
    obtain ⟨hstep, hrest⟩ := List.forall_mem_cons.mp hfresh
    have hmoves := moves_run (s := s) hstep
    rw [hbook] at hmoves
    have hnext := hmove step (List.mem_cons_self ..) before _ _ _ hmoves h
    rw [bookings, ← List.append_assoc]
    exact bookings_induction (before ++ _) ((book_run s step).trans hbook) hrest
      (fun step' hstep' => hmove step' (List.mem_cons_of_mem _ hstep')) hnext

/-- Every quote that a run books was evaluated by the rule book. -/
theorem evaluates_of_mem_bookings {b : RuleBook α} {steps : List (Step α)} {s : Session σ α}
    (hbook : s.book = b) (hfresh : ∀ step ∈ steps, step.isStale = false) :
    ∀ q ∈ s.bookings steps, b.Evaluates q := by
  refine bookings_induction (P := fun qs _ => ∀ q ∈ qs, b.Evaluates q) [] hbook hfresh ?_
    (fun q hq => nomatch hq)
  intro step _ qs p booked p' hmoves hqs
  cases hmoves with
  | booked step card amount rawCategory mode listed vetted =>
    refine List.forall_mem_append.mpr ⟨hqs, fun q hq => ?_⟩
    rw [List.mem_singleton.mp hq]
    exact ⟨card, listed, amount, rawCategory, mode, p.ledger, p.settings,
      RuleBook.not_le_zero_of_vet vetted, rfl⟩
  | idle | chosen | advanced | reset =>
    rw [Option.toList_none, List.append_nil]
    exact hqs

end Session

end CardRewards
