import CardRewards.Account
import CardRewards.Proofs.Exact
import CardRewards.Scheme.Sample

/-!
# Booking and moving up are all or nothing

Two operations change a profile for good: booking a quote, and the move to the next tier. Each of
them stages the new profile, hands it to the store, and takes it over only if the store took it.
Here they are attempted one after another on a store that may refuse at any attempt
(`Attempt.perform`), and the events are written down (`history`).

What an attempt does is settled before it is made: `perform_of_fault` and `perform_of_no_fault`.
From these two the whole history follows, `history_atomic`: memory and store agree after every
attempt, an attempt that fails leaves both as they were, and the profile in the end is that of the
attempts that succeeded, carried out one after another.
-/

namespace CardRewards

/-- An operation that changes a profile for good. -/
inductive Operation (α : Type) where
  | commit (quote : Quote α)
  | advanceTier

/-- An operation, at a time when the store takes profiles or has a reason to refuse them. -/
structure Attempt (α : Type) where
  operation : Operation α
  refusal : Option String

/-- What happened at an attempt. -/
structure Event (α : Type) where
  before : Account (Refusing (MemoryStore α)) α
  attempt : Attempt α
  answer : Except (Fault α) (Receipt α ⊕ TierStep)
  after : Account (Refusing (MemoryStore α)) α

variable {α : Type} [Amount α]

namespace Operation

/-- Carry out an operation on an account. -/
def perform {σ : Type} [ProfileStore σ α] (b : RuleBook α) (a : Account σ α) :
    Operation α → Except (Fault α) (Receipt α ⊕ TierStep) × Account σ α
  | .commit quote =>
    let (result, a) := b.commit a quote
    (result.map .inl, a)
  | .advanceTier =>
    let (result, a) := b.advanceTier a
    (result.map .inr, a)

/-- Why a rule book refuses an operation, whatever the store does. -/
def fault? (b : RuleBook α) : Operation α → Option (Fault α)
  | .commit quote =>
    match b.scheme.card? quote.cardId with
    | some _ => none
    | none => some (.cardNotFound quote.cardId)
  | .advanceTier =>
    match b.scheme.tierProgram with
    | some _ => none
    | none => some .tierProgramMissing

/-- The profile that an operation makes of a profile. -/
def applyTo (b : RuleBook α) (p : Profile α) : Operation α → Profile α
  | .commit quote => p.book quote
  | .advanceTier =>
    match b.scheme.tierProgram with
    | some program => program.advance p
    | none => p

end Operation

namespace Attempt

/-- Why an attempt fails: the rule book refuses it, or else the store does. -/
def fault? (b : RuleBook α) (t : Attempt α) : Option (Fault α) :=
  match t.operation.fault? b with
  | some fault => some fault
  | none => t.refusal.map fun reason => .notStored (.refused reason)

/-- Make an attempt. -/
def perform (b : RuleBook α) (a : Account (Refusing (MemoryStore α)) α) (t : Attempt α) :
    Except (Fault α) (Receipt α ⊕ TierStep) × Account (Refusing (MemoryStore α)) α :=
  t.operation.perform b { a with store := { a.store with reason := t.refusal } }

end Attempt

/-- What happens when attempts are made one after another. -/
def history (b : RuleBook α) (a : Account (Refusing (MemoryStore α)) α) :
    List (Attempt α) → List (Event α)
  | [] => []
  | t :: rest =>
    let (answer, after) := t.perform b a
    ⟨a, t, answer, after⟩ :: history b after rest

/-- The account after attempts have been made one after another. -/
def Account.afterAttempts (b : RuleBook α) (a : Account (Refusing (MemoryStore α)) α)
    (attempts : List (Attempt α)) : Account (Refusing (MemoryStore α)) α :=
  attempts.foldl (fun a t => (t.perform b a).2) a

/-! ## One attempt -/

namespace Attempt

/-- An attempt that fails leaves the profile in memory and the stored one as they were. -/
theorem perform_of_fault {b : RuleBook α} {a : Account (Refusing (MemoryStore α)) α}
    {t : Attempt α} {fault : Fault α} (h : t.fault? b = some fault) :
    t.perform b a = (.error fault, ⟨a.profile, ⟨a.store.store, t.refusal⟩⟩) := by
  obtain ⟨operation, refusal⟩ := t
  cases operation with
  | commit quote =>
    cases hcard : b.scheme.card? quote.cardId with
    | none =>
      simp only [fault?, Operation.fault?, hcard, Option.some.injEq] at h
      subst h
      simp [perform, Operation.perform, RuleBook.commit, hcard, Except.map]
    | some card =>
      -- the card is known, so it is the store that refuses
      simp only [fault?, Operation.fault?, hcard, Option.map_eq_some_iff] at h
      obtain ⟨reason, rfl, rfl⟩ := h
      simp [perform, Operation.perform, RuleBook.commit, hcard, Account.settle, ProfileStore.save,
        Except.map]
  | advanceTier =>
    cases hprogram : b.scheme.tierProgram with
    | none =>
      simp only [fault?, Operation.fault?, hprogram, Option.some.injEq] at h
      subst h
      simp [perform, Operation.perform, RuleBook.advanceTier, hprogram, Except.map]
    | some program =>
      simp only [fault?, Operation.fault?, hprogram, Option.map_eq_some_iff] at h
      obtain ⟨reason, rfl, rfl⟩ := h
      simp [perform, Operation.perform, RuleBook.advanceTier, hprogram, Account.settle,
        ProfileStore.save, Except.map]

/-- An attempt that nothing speaks against makes the new profile the one in memory and the stored
one. -/
theorem perform_of_no_fault {b : RuleBook α} {a : Account (Refusing (MemoryStore α)) α}
    {t : Attempt α} (h : t.fault? b = none) :
    ∃ answer, t.perform b a = (.ok answer, ⟨t.operation.applyTo b a.profile,
      ⟨⟨t.operation.applyTo b a.profile⟩, none⟩⟩) := by
  obtain ⟨operation, refusal⟩ := t
  cases operation with
  | commit quote =>
    cases hcard : b.scheme.card? quote.cardId with
    | none => simp [fault?, Operation.fault?, hcard] at h
    | some card =>
      simp only [fault?, Operation.fault?, hcard, Option.map_eq_none_iff] at h
      subst h
      exact ⟨.inl (a.profile.receipt quote), by
        simp [perform, Operation.perform, RuleBook.commit, hcard, Account.settle,
          ProfileStore.save, Except.map, Operation.applyTo]⟩
  | advanceTier =>
    cases hprogram : b.scheme.tierProgram with
    | none => simp [fault?, Operation.fault?, hprogram] at h
    | some program =>
      simp only [fault?, Operation.fault?, hprogram, Option.map_eq_none_iff] at h
      subst h
      exact ⟨.inr (program.stepFrom a.profile.settings.tierLevel), by
        simp [perform, Operation.perform, RuleBook.advanceTier, hprogram, Account.settle,
          ProfileStore.save, Except.map, Operation.applyTo]⟩

end Attempt

omit [Amount α] in
/-- What an attempt fails with is one of three faults. -/
theorem Attempt.code_of_fault {b : RuleBook α} {t : Attempt α} {fault : Fault α}
    (h : t.fault? b = some fault) :
    fault.code ∈ ["CARD_NOT_FOUND", "TIER_PROGRAM_MISSING", "STORE_ERROR"] := by
  unfold fault? at h
  split at h
  next fault' hfault =>
    obtain rfl := Option.some.inj h
    cases hoperation : t.operation with
    | commit quote =>
      rw [hoperation] at hfault
      cases hcard : b.scheme.card? quote.cardId <;> simp only [Operation.fault?, hcard] at hfault
      · obtain rfl := Option.some.inj hfault
        simp [Fault.code]
      · exact nomatch hfault
    | advanceTier =>
      rw [hoperation] at hfault
      cases hprogram : b.scheme.tierProgram <;>
        simp only [Operation.fault?, hprogram] at hfault
      · obtain rfl := Option.some.inj hfault
        simp [Fault.code]
      · exact nomatch hfault
  next =>
    obtain ⟨reason, -, rfl⟩ := Option.map_eq_some_iff.mp h
    simp [Fault.code]

/-! ## Many attempts -/

/-- The profile in memory is the one that the store would load. -/
def Account.InStep (a : Account (Refusing (MemoryStore α)) α) : Prop :=
  ProfileStore.load a.store = .ok a.profile

theorem Attempt.inStep_perform {b : RuleBook α} {a : Account (Refusing (MemoryStore α)) α}
    (h : a.InStep) (t : Attempt α) : (t.perform b a).2.InStep := by
  cases hfault : t.fault? b with
  | some fault =>
    rw [perform_of_fault hfault]
    exact h
  | none =>
    obtain ⟨answer, hperform⟩ := perform_of_no_fault (a := a) hfault
    rw [hperform]
    rfl

/-- Every event of a history is an attempt made on an account in step. -/
theorem of_mem_history {b : RuleBook α} {attempts : List (Attempt α)} {e : Event α} :
    ∀ {a : Account (Refusing (MemoryStore α)) α}, a.InStep → e ∈ history b a attempts →
      e.before.InStep ∧ e.attempt.perform b e.before = (e.answer, e.after) := by
  induction attempts with
  | nil => intro a _ he; simp [history] at he
  | cons t rest ih =>
    intro a ha he
    rcases List.mem_cons.mp he with rfl | he
    · exact ⟨ha, rfl⟩
    · exact ih (t.inStep_perform ha) he

theorem inStep_afterAttempts {b : RuleBook α} {attempts : List (Attempt α)} :
    ∀ {a : Account (Refusing (MemoryStore α)) α}, a.InStep →
      (a.afterAttempts b attempts).InStep := by
  induction attempts with
  | nil => intro a ha; exact ha
  | cons t rest ih => intro a ha; exact ih (t.inStep_perform ha)

/-- The profile in the end is that of the attempts that succeeded, in order. -/
theorem profile_afterAttempts {b : RuleBook α} {attempts : List (Attempt α)} :
    ∀ a : Account (Refusing (MemoryStore α)) α,
      (a.afterAttempts b attempts).profile =
        ((history b a attempts).filter (·.answer.isOk)).foldl
          (fun p e => e.attempt.operation.applyTo b p) a.profile := by
  induction attempts with
  | nil => intro a; rfl
  | cons t rest ih =>
    intro a
    show ((t.perform b a).2.afterAttempts b rest).profile = _
    rw [ih]
    -- a failed attempt drops out of the list and leaves the profile that the rest starts from
    cases hfault : t.fault? b with
    | some fault =>
      simp [history, t.perform_of_fault hfault, Except.isOk, Except.toBool]
    | none =>
      obtain ⟨answer, hperform⟩ := t.perform_of_no_fault (a := a) hfault
      simp [history, hperform, Except.isOk, Except.toBool]

/-- **All or nothing**: on an account whose memory and store agree, whatever is attempted and
whenever the store refuses, memory and store agree after every attempt; an attempt fails exactly if
the card is unknown, there is no tier program or the store refuses, and then leaves the profile in
memory and the stored one as they were; and the profile in the end, in memory and in the store, is
that of the attempts that succeeded, carried out in order. -/
theorem history_atomic (b : RuleBook α) (p : Profile α) (reason : Option String)
    (attempts : List (Attempt α)) :
    let start : Account (Refusing (MemoryStore α)) α := ⟨p, ⟨⟨p⟩, reason⟩⟩
    (∀ e ∈ history b start attempts,
      ProfileStore.load e.after.store = .ok e.after.profile ∧
      (∀ fault, e.answer = .error fault ↔ e.attempt.fault? b = some fault) ∧
      ∀ fault, e.answer = .error fault →
        e.after.profile = e.before.profile ∧
        ProfileStore.load e.after.store = ProfileStore.load e.before.store ∧
        fault.code ∈ ["CARD_NOT_FOUND", "TIER_PROGRAM_MISSING", "STORE_ERROR"]) ∧
    ProfileStore.load (start.afterAttempts b attempts).store =
      .ok (start.afterAttempts b attempts).profile ∧
    (start.afterAttempts b attempts).profile =
      ((history b start attempts).filter (·.answer.isOk)).foldl
        (fun p e => e.attempt.operation.applyTo b p) p := by
  intro start
  have hstart : start.InStep := rfl
  refine ⟨fun e he => ?_, inStep_afterAttempts hstart, profile_afterAttempts start⟩
  obtain ⟨hbefore, hperform⟩ := of_mem_history hstart he
  have hafter : e.after.InStep := by
    have := e.attempt.inStep_perform (b := b) hbefore
    rwa [hperform] at this
  cases hfault : e.attempt.fault? b with
  | none =>
    obtain ⟨answer, hok⟩ := e.attempt.perform_of_no_fault (a := e.before) hfault
    have hanswer : e.answer = .ok answer := by
      rw [hok] at hperform
      exact (Prod.mk.inj hperform).1.symm
    refine ⟨hafter, ?_, ?_⟩ <;> simp [hanswer]
  | some fault =>
    rw [e.attempt.perform_of_fault hfault] at hperform
    obtain ⟨hanswer, hsame⟩ := Prod.mk.inj hperform
    refine ⟨hafter, fun fault' => by simp [← hanswer], fun fault' herror => ?_⟩
    obtain rfl : fault = fault' := by simpa [← hanswer] using herror
    rw [← hsame]
    exact ⟨rfl, rfl, e.attempt.code_of_fault hfault⟩

/-- A booking refused and made again, one for an unknown card, and a move up refused and made
again: two of the five attempts succeed. -/
def retriedAttempts : List (Attempt ℚ) :=
  let quote := (RuleBook.ofScheme Sample.scheme).quote (.held "everyday" "cash" ["base"]) 1000
    "dining" .cash .empty .empty
  [⟨.commit quote, some "disk full"⟩, ⟨.commit quote, none⟩,
    ⟨.commit { quote with cardId := "lost" }, none⟩, ⟨.advanceTier, some "disk full"⟩,
    ⟨.advanceTier, none⟩]

/-- What was refused left no trace: in memory and in the store the purchase is booked once, and the
customer is one level up. -/
theorem history_atomic_retried :
    let b : RuleBook ℚ := .ofScheme Sample.scheme
    let start : Account (Refusing (MemoryStore ℚ)) ℚ := ⟨.empty, ⟨⟨.empty⟩, none⟩⟩
    let final := start.afterAttempts b retriedAttempts
    (history b start retriedAttempts).map (·.answer.isOk) = [false, true, false, false, true] ∧
      ProfileStore.load final.store = .ok final.profile ∧
      final.profile.ledger.get (.cardSpend "everyday") = 1000 ∧
      final.profile.settings.tierLevel = 1 := by
  intro b start final
  obtain ⟨-, hstored, -⟩ := history_atomic b .empty none retriedAttempts
  refine ⟨?_, hstored, ?_, ?_⟩ <;> decide +kernel

end CardRewards
