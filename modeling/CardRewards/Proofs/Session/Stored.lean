import CardRewards.Proofs.Session.Run
import CardRewards.Proofs.Storage.ProfileFile
import CardRewards.Scheme.Sample

/-!
# The stored profile and the one in memory

Every booking that goes through has handed the whole profile to the store (`save_of_run`), so what
the store holds after a run of bookings depends on the last of them only. A profile file then holds
the profile in memory as long as all its amounts are finite (`load_of_run`).

That the amounts of the purchases are finite does not make their sums so. A sum that is too large
for a double is booked and stored like any other, as nothing, and the file is no profile from then
on (`load_of_run_overflow`).
-/

namespace CardRewards

/-- Whether a step evaluates a purchase for one card and books it. -/
def Step.commitsCard {α : Type} : Step α → Bool
  | .commitCard _ _ => true
  | _ => false

namespace Session

section

variable {σ α : Type} [Amount α] [ProfileStore σ α] {s : Session σ α}

/-- Whether each of some steps succeeds. -/
def succeeds (s : Session σ α) : List (Step α) → Bool
  | [] => true
  | step :: rest => (s.run step).1.isOk && (s.run step).2.succeeds rest

theorem succeeds_append (front rest : List (Step α)) :
    ∀ s : Session σ α,
      s.succeeds (front ++ rest) = (s.succeeds front && (s.after front).succeeds rest) := by
  induction front with
  | nil => exact fun _ => rfl
  | cons step front ih =>
    intro s
    show ((s.run step).1.isOk && (s.run step).2.succeeds (front ++ rest)) = _
    rw [ih, ← Bool.and_assoc]
    rfl

/-- A booking that goes through has handed the new profile to the store. -/
theorem save_of_bookQuote {q : Quote α} (h : (s.bookQuote q).1.isOk = true) :
    ProfileStore.save s.account.store (s.bookQuote q).2.account.profile =
      (.ok (), (s.bookQuote q).2.account.store) := by
  change (((s.book.commit s.account q).1.map _).mapError _).isOk = true at h
  rw [isOk_answer] at h
  show ProfileStore.save s.account.store (s.book.commit s.account q).2.profile =
    (.ok (), (s.book.commit s.account q).2.store)
  unfold RuleBook.commit Account.settle at *
  cases hcard : s.book.scheme.card? q.cardId with
  | none =>
    rw [hcard] at h
    exact absurd h Bool.false_ne_true
  | some card =>
    rw [hcard] at h
    cases hsave : ProfileStore.save s.account.store (s.account.profile.book q) with
    | mk saved store =>
      cases saved with
      | ok => exact hsave
      | error fault => simp [hsave, Except.isOk, Except.toBool] at h

theorem save_of_run {step : Step α} (commits : step.commitsCard = true)
    (h : (s.run step).1.isOk = true) :
    ProfileStore.save s.account.store (s.run step).2.account.profile =
      (.ok (), (s.run step).2.account.store) := by
  cases step with
  | commitCard card p =>
    cases hquote : s.quoteFor card p with
    | ok q =>
      have hrun : s.run (.commitCard card p) = s.bookQuote q := by simp only [run, hquote]
      rw [hrun] at h ⊢
      exact save_of_bookQuote h
    | error fault =>
      have hrun : s.run (.commitCard card p) = (.error (.fault fault), s) := by
        simp only [run, hquote]
      rw [hrun] at h
      exact absurd h Bool.false_ne_true
  | _ => exact absurd commits Bool.false_ne_true

end

/-- After a booking that goes through the profile file is read as the profile in memory, if all
amounts are finite, and is not read otherwise. -/
theorem load_run {s : Session ProfileFile Binary64} {step : Step Binary64}
    (commits : step.commitsCard = true) (h : (s.run step).1.isOk = true)
    (hback : (s.run step).2.account.profile.ReadsBack) :
    (s.run step).2.account.store.load =
      if (s.run step).2.account.profile.IsFinite then .ok (s.run step).2.account.profile
      else .error .malformedJson :=
  ProfileFile.load_of_save (save_of_run commits h) hback

/-- **A profile file holds the profile in memory as long as all amounts are finite**, after each of
any number of purchases that are evaluated and booked, the file being absent at first. Where an
amount is not finite the file is no profile. -/
theorem load_of_run {s : Session ProfileFile Binary64} {steps : List (Step Binary64)}
    (absent : s.account.store.files.holds s.account.store.path = false)
    (fresh : s.account.profile = .empty)
    (commits : ∀ step ∈ steps, step.commitsCard = true) (succeed : s.succeeds steps = true)
    (n : Nat) (hback : (s.after (steps.take n)).account.profile.ReadsBack) :
    (s.after (steps.take n)).account.store.load =
      if (s.after (steps.take n)).account.profile.IsFinite then
        .ok (s.after (steps.take n)).account.profile
      else .error .malformedJson := by
  rcases List.eq_nil_or_concat (steps.take n) with hnone | ⟨front, step, hsplit⟩
  · rw [hnone]
    show s.account.store.load =
      if s.account.profile.IsFinite then .ok s.account.profile else .error .malformedJson
    rw [fresh, if_pos (by decide), ProfileFile.load, absent]
    rfl
  · -- the last of the bookings has stored all of the profile, whatever the others stored
    rw [List.concat_eq_append] at hsplit
    have htaken : step ∈ steps.take n := by
      rw [hsplit]
      exact List.mem_append_right _ (List.mem_singleton.mpr rfl)
    have hmem : step ∈ steps := List.mem_of_mem_take htaken
    have hstep : ((s.after front).run step).1.isOk = true := by
      have hprefix := succeeds_append (steps.take n) (steps.drop n) s
      rw [List.take_append_drop, succeed, hsplit, succeeds_append] at hprefix
      obtain ⟨hfirst, -⟩ := Bool.and_eq_true_iff.mp hprefix.symm
      obtain ⟨-, hlast⟩ := Bool.and_eq_true_iff.mp hfirst
      exact (Bool.and_eq_true_iff.mp hlast).1
    have hafter : s.after (steps.take n) = ((s.after front).run step).2 := by
      rw [hsplit]
      exact List.foldl_append ..
    rw [hafter] at hback ⊢
    exact load_run (commits step hmem) hstep hback

/-- A customer of a card that grants nothing, whose profile is not stored yet. -/
def newCustomer : Session ProfileFile Binary64 where
  book := .ofScheme (Sample.single [])
  account := ⟨.empty, .empty, ⟨"data/profile.json"⟩⟩
  quotes := []

/-- Buy something twice for an amount. -/
def buyTwice (amount : Binary64) : List (Step Binary64) :=
  List.replicate 2 (.commitCard "card" ⟨"dining", amount, .cash⟩)

/-- Two purchases of a hundred are stored, and read again as they are in memory. -/
theorem load_of_run_twice :
    let account := (newCustomer.after ((buyTwice (Sample.whole 100)).take 2)).account
    account.store.load = .ok account.profile ∧
      account.profile.ledger.get (.cardSpend "card") = Sample.whole 200 := by
  intro account
  have habsent : newCustomer.account.store.files.holds newCustomer.account.store.path = false := by
    decide +kernel
  have hcommits : ∀ step ∈ buyTwice (Sample.whole 100), step.commitsCard = true := by decide
  have hsucceed : newCustomer.succeeds (buyTwice (Sample.whole 100)) = true := by decide +kernel
  have hload := load_of_run habsent rfl hcommits hsucceed 2 (by decide +kernel)
  exact ⟨hload.trans (if_pos (by decide +kernel)), by decide +kernel⟩

/-- Two purchases whose amounts are finite and whose sum is not are booked and stored, and the file
is no profile then. -/
theorem load_of_run_overflow :
    let huge : Binary64 := ⟨0x7FE1CCF385EBC8A0⟩
    let account := (newCustomer.after (buyTwice huge)).account
    huge.isFinite = true ∧ newCustomer.succeeds (buyTwice huge) = true ∧
      account.store.load = .error .malformedJson ∧ account.store.load ≠ .ok account.profile := by
  intro huge account
  have hload : account.store.load = .error .malformedJson := by
    let step : Step Binary64 := .commitCard "card" ⟨"dining", huge, .cash⟩
    have hcommits : step.commitsCard = true := rfl
    have hstep : ((newCustomer.run step).2.run step).1.isOk = true := by decide +kernel
    have hrun := load_run hcommits hstep (by decide +kernel)
    exact hrun.trans (if_neg (by decide +kernel))
  refine ⟨by decide, by decide +kernel, hload, fun heq => ?_⟩
  exact nomatch hload.symm.trans heq

end Session

end CardRewards
