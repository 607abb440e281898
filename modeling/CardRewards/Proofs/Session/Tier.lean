import CardRewards.Proofs.Quote.Counters
import CardRewards.Proofs.Session.Run
import CardRewards.Scheme.Sample

/-!
# Tiers along a run

In a run that evaluates, books what it evaluated and moves up, the tier is moved by the moves up
alone, one level each and not beyond the highest (`tierLevel_after`). A move up sets the two
counters of the program to zero and leaves everything else as it was (`TierProgram.MovedUp`).

With exact amounts the rewards that the program has granted stay within the limit of the row in
force (`WithinRow`). Booking keeps them there because a row grants no more than it leaves, and a
move up, which may put a smaller limit in force, because it sets them back to zero.
-/

namespace CardRewards

/-! ## Moving up -/

namespace TierProgram

variable {α : Type} [Amount α]

/-- All that a move up does to a profile. -/
structure MovedUp (program : TierProgram α) (p p' : Profile α) : Prop where
  settings : p'.settings =
    { p.settings with tierLevel := program.nextLevel p.settings.tierLevel }
  totals : p'.totals = p.totals
  spend : p'.ledger.get (.tierSpend program.id) = 0 ∧
    p'.ledger.contains (.tierSpend program.id) = true
  reward : p'.ledger.get (.tierReward program.id) = 0 ∧
    p'.ledger.contains (.tierReward program.id) = true
  others : ∀ key, key ≠ .tierSpend program.id → key ≠ .tierReward program.id →
    p'.ledger.get key = p.ledger.get key ∧ p'.ledger.contains key = p.ledger.contains key

theorem movedUp_advance (program : TierProgram α) (p : Profile α) :
    program.MovedUp p (program.advance p) where
  settings := rfl
  totals := rfl
  spend := by
    show ((p.ledger.reset _).reset _).get _ = 0 ∧ ((p.ledger.reset _).reset _).contains _ = true
    rw [Ledger.get_reset, Ledger.get_reset, if_pos rfl, ite_self, Ledger.contains_reset,
      Ledger.contains_reset, beq_self_eq_true, Bool.true_or, Bool.or_true]
    exact ⟨rfl, rfl⟩
  reward := by
    show ((p.ledger.reset _).reset _).get _ = 0 ∧ ((p.ledger.reset _).reset _).contains _ = true
    rw [Ledger.get_reset, if_pos rfl, Ledger.contains_reset, beq_self_eq_true, Bool.true_or]
    exact ⟨rfl, rfl⟩
  others key hspend hreward := by
    show ((p.ledger.reset _).reset _).get key = _ ∧ ((p.ledger.reset _).reset _).contains key = _
    rw [Ledger.get_reset, Ledger.get_reset, if_neg hreward, if_neg hspend, Ledger.contains_reset,
      Ledger.contains_reset, beq_false_of_ne hreward, beq_false_of_ne hspend, Bool.false_or,
      Bool.false_or]
    exact ⟨rfl, rfl⟩

/-- The level after so many moves up from a level. -/
def levelAfter (program : TierProgram α) (moves level : ℕ) : ℕ :=
  if moves = 0 then level else min (level + moves) program.maxLevel.toNat

omit [Amount α] in
theorem levelAfter_nextLevel (program : TierProgram α) (moves : ℕ) (level : UInt8) :
    program.levelAfter moves (program.nextLevel level).toNat =
      program.levelAfter (1 + moves) level.toNat := by
  rw [toNat_nextLevel, levelAfter, levelAfter, if_neg (by omega : 1 + moves ≠ 0)]
  by_cases h : moves = 0
  · rw [if_pos h, h]
  · rw [if_neg h]
    omega

end TierProgram

/-- Whether a step reads, books what it evaluates for the profile at hand, or moves up. -/
def Step.isRegular {α : Type} : Step α → Bool
  | commitKept _ | commitQuote _ | reload | choose _ | reset _ => false
  | _ => true

theorem Step.isStale_of_isRegular {α : Type} {step : Step α} (h : step.isRegular = true) :
    step.isStale = false := by
  cases step <;> first | rfl | simp [isRegular] at h

namespace Session

variable {σ α : Type} [Amount α] [ProfileStore σ α]

/-- Whether a step moves the customer up. -/
def movesUp (s : Session σ α) : Step α → Bool
  | .advanceTier => (s.run .advanceTier).1.isOk
  | _ => false

/-- How many of some steps move the customer up. -/
def movesUpIn (s : Session σ α) : List (Step α) → ℕ
  | [] => 0
  | step :: rest => (if s.movesUp step then 1 else 0) + movesUpIn (s.run step).2 rest

variable {s : Session σ α} {step : Step α} {program : TierProgram α}

/-- Moving up succeeds and moves the profile up, or fails and leaves it alone. -/
theorem profile_run_advanceTier (s : Session σ α) :
    (s.run .advanceTier).2.account.profile =
      if s.movesUp .advanceTier then
        match s.book.scheme.tierProgram with
        | some program => program.advance s.account.profile
        | none => s.account.profile
      else s.account.profile := by
  show (s.book.advanceTier s.account).2.profile =
    if (((s.book.advanceTier s.account).1.map _).mapError _).isOk then _ else _
  rw [isOk_answer]
  unfold RuleBook.advanceTier
  cases s.book.scheme.tierProgram with
  | none => rfl
  | some program => exact profile_settle _ _ _

theorem movedUp_run (offered : s.book.scheme.tierProgram = some program)
    (h : s.movesUp step = true) :
    program.MovedUp s.account.profile (s.run step).2.account.profile := by
  cases step with
  | advanceTier =>
    rw [profile_run_advanceTier, if_pos h, offered]
    exact program.movedUp_advance s.account.profile
  | _ => simp [movesUp] at h

/-- A regular step that does not move up leaves the settings alone. -/
theorem settings_run (hregular : step.isRegular = true) (h : s.movesUp step = false) :
    (s.run step).2.account.profile.settings = s.account.profile.settings := by
  by_cases hadvance : step = .advanceTier
  · rw [hadvance, profile_run_advanceTier, ← hadvance, h]
    rfl
  · have hmoves := moves_run (s := s) (Step.isStale_of_isRegular hregular)
    generalize s.booked? step = booked at hmoves
    generalize (s.run step).2.account.profile = p' at hmoves ⊢
    cases hmoves with
    | idle | booked => rfl
    | chosen | reset => simp [Step.isRegular] at hregular
    | advanced => exact absurd rfl hadvance

/-- The tier after a run is that after so many moves up as succeeded. -/
theorem tierLevel_after (offered : s.book.scheme.tierProgram = some program)
    {steps : List (Step α)} (hregular : ∀ step ∈ steps, step.isRegular = true) :
    (s.after steps).account.profile.settings.tierLevel.toNat =
      program.levelAfter (s.movesUpIn steps) s.account.profile.settings.tierLevel.toNat := by
  induction steps generalizing s with
  | nil => rfl
  | cons step rest ih =>
    -- the run goes on from the session after its first step, with the same program
    obtain ⟨hstep, hrest⟩ := List.forall_mem_cons.mp hregular
    have hnext := ih (s := (s.run step).2) (by rw [book_run, offered]) hrest
    rw [after, List.foldl_cons]
    show ((s.run step).2.after rest).account.profile.settings.tierLevel.toNat = _
    rw [hnext, movesUpIn]
    cases hmove : s.movesUp step with
    | true =>
      rw [(movedUp_run offered hmove).settings]
      exact program.levelAfter_nextLevel _ _
    | false =>
      rw [settings_run hstep hmove, if_neg Bool.false_ne_true, Nat.zero_add]

end Session

/-! ## Granting by a row -/

/-- The rewards that a program has granted are within the limit of the row in force, if there is
one. -/
def TierProgram.WithinRow (program : TierProgram ℚ) (p : Profile ℚ) : Prop :=
  ∀ row, program.row? p.settings.tierLevel = some row →
    p.ledger.get (.tierReward program.id) ≤ row.cap

/-- What a row grants fits under its limit, if what has been granted before does. -/
theorem Occasion.used_add_tierGranted_le {o : Occasion ℚ} {program : TierProgram ℚ}
    {row : TierLevel ℚ} (h : o.ledger.get (.tierReward program.id) ≤ row.cap) :
    o.ledger.get (.tierReward program.id) + max (o.tierGranted program row) 0 ≤ row.cap := by
  unfold tierGranted
  by_cases hrest : Amount.headroom row.cap (o.ledger.get (.tierReward program.id)) ≤ 0
  · rw [if_pos hrest, max_self, add_zero]
    exact h
  · rw [if_neg hrest, Amount.smaller_eq_min]
    have hpos := not_le.mp hrest
    exact Amount.used_add_le_limit hpos (max_le (min_le_right _ _) hpos.le)

namespace RuleBook

variable {b : RuleBook ℚ} {program : TierProgram ℚ} {p p' : Profile ℚ}

theorem withinRow_book {card : Card} {amount : ℚ} {rawCategory : String} {mode : DisplayMode}
    (offered : b.scheme.tierProgram = some program)
    (apart : .tierReward program.id ∉ b.capKeys) (h : program.WithinRow p) :
    program.WithinRow (p.book (b.quote card amount rawCategory mode p.ledger p.settings)) := by
  intro row hrow
  have hcap : .tierReward program.id ∉ b.capKeysOf card :=
    fun hmem => apart (b.capKeysOf_subset card hmem)
  show (p.ledger.post _).get _ ≤ row.cap
  rw [Ledger.get_post]
  cases hcharge : (b.quote card amount rawCategory mode p.ledger p.settings).tierCharge with
  | none =>
    rw [total_charges_of_no_tierCharge hcharge hcap, add_zero]
    exact h row hrow
  | some t =>
    -- what is charged was granted by the row in force
    obtain ⟨r, -, program', row', htiers, rfl⟩ := tiers_of_tierCharge hcharge
    obtain rfl : program' = program := Option.some.inj (htiers.offered.symm.trans offered)
    obtain rfl : row' = row := Option.some.inj (htiers.row.symm.trans hrow)
    refine (congrArg _ (total_charges_tierReward hcharge hcap)).trans_le ?_
    exact Occasion.used_add_tierGranted_le
      (o := b.occasion card amount rawCategory p.ledger p.settings) (h row' hrow)

/-- No regular step takes the rewards granted beyond the limit of the row in force. -/
theorem withinRow_of_moves {step : Step ℚ} {booked : Option (Quote ℚ)}
    (offered : b.scheme.tierProgram = some program)
    (apart : .tierReward program.id ∉ b.capKeys) (hcaps : ∀ row ∈ program.levels, 0 ≤ row.cap)
    (hregular : step.isRegular = true) (hmoves : b.Moves p step booked p')
    (h : program.WithinRow p) : program.WithinRow p' := by
  cases hmoves with
  | idle => exact h
  | booked => exact withinRow_book offered apart h
  | chosen | reset => simp [Step.isRegular] at hregular
  | advanced program' offered' =>
    obtain rfl : program' = program := Option.some.inj (offered'.symm.trans offered)
    intro row hrow
    rw [(program'.movedUp_advance p).reward.1]
    exact hcaps row (List.mem_of_find?_eq_some hrow)

end RuleBook

/-! ## Runs -/

namespace Session

theorem after_take_succ {σ α : Type} [Amount α] [ProfileStore σ α] (s : Session σ α)
    (steps : List (Step α)) {n : ℕ} (h : n < steps.length) :
    s.after (steps.take (n + 1)) = ((s.after (steps.take n)).run steps[n]).2 := by
  rw [List.take_succ_eq_append_getElem h, after, List.foldl_append]
  rfl

theorem withinRow_after {σ : Type} [ProfileStore σ ℚ] {s : Session σ ℚ} {program : TierProgram ℚ}
    (offered : s.book.scheme.tierProgram = some program)
    (hcaps : ∀ row ∈ program.levels, 0 ≤ row.cap)
    (apart : .tierReward program.id ∉ s.book.capKeys) (hstart : program.WithinRow s.account.profile)
    {steps : List (Step ℚ)} (hregular : ∀ step ∈ steps, step.isRegular = true) :
    program.WithinRow (s.after steps).account.profile := by
  refine bookings_induction (P := fun _ p => program.WithinRow p) [] rfl
    (fun step hstep => Step.isStale_of_isRegular (hregular step hstep)) ?_ hstart
  intro step hstep _ p booked p' hmoves hwithin
  exact RuleBook.withinRow_of_moves offered apart hcaps (hregular step hstep) hmoves hwithin

/-- **The tier along a run** of steps that read, book what they evaluate or move up, whatever the
store does. A step changes the settings only if it moves up, and then it raises the level by one
within the highest, sets the two counters of the program to zero and changes nothing else; so the
level in the end is known from the number of moves. And with exact amounts, if no row has a negative
limit, no cap names the counter of the program's rewards and these start within the limit of the
row in force, they are within it after every step. -/
theorem tier_of_run :
    (∀ {σ α : Type} [Amount α] [ProfileStore σ α] (s : Session σ α) (program : TierProgram α)
        (steps : List (Step α)), s.book.scheme.tierProgram = some program →
        (∀ step ∈ steps, step.isRegular = true) →
      (∀ n (h : n < steps.length),
        let before := s.after (steps.take n)
        let after := s.after (steps.take (n + 1))
        if before.movesUp steps[n] then
          program.MovedUp before.account.profile after.account.profile
        else after.account.profile.settings = before.account.profile.settings) ∧
      (s.after steps).account.profile.settings.tierLevel.toNat =
        if s.movesUpIn steps = 0 then s.account.profile.settings.tierLevel.toNat
        else min (s.account.profile.settings.tierLevel.toNat + s.movesUpIn steps)
          program.maxLevel.toNat) ∧
    ∀ {σ : Type} [ProfileStore σ ℚ] (s : Session σ ℚ) (program : TierProgram ℚ)
        (steps : List (Step ℚ)), s.book.scheme.tierProgram = some program →
        (∀ step ∈ steps, step.isRegular = true) →
        (∀ row ∈ program.levels, 0 ≤ row.cap) → .tierReward program.id ∉ s.book.capKeys →
        program.WithinRow s.account.profile →
      ∀ n, program.WithinRow (s.after (steps.take n)).account.profile := by
  refine ⟨fun s program steps offered hregular => ⟨fun n h => ?_, ?_⟩,
    fun s program steps offered hregular hcaps apart hstart n => ?_⟩
  · intro before after
    have hbook : before.book.scheme.tierProgram = some program := by
      rw [book_after, offered]
    rw [show after = (before.run steps[n]).2 from s.after_take_succ steps h]
    split
    next hmove => exact movedUp_run hbook hmove
    next hmove =>
      exact settings_run (hregular _ (List.getElem_mem h)) (Bool.eq_false_iff.mpr hmove)
  · exact tierLevel_after offered hregular
  · exact withinRow_after offered hcaps apart hstart fun step hstep =>
      hregular step (List.mem_of_mem_take hstep)

/-- Two purchases beyond the limit of a row, each followed by a move up, the second of them from
the highest level. -/
def tierSteps : List (Step ℚ) :=
  [.commitCard "voyage" ⟨"dining", 30000, .cash⟩, .advanceTier,
    .commitCard "voyage" ⟨"travel", 10000, .miles⟩, .advanceTier]

/-- The limits of both rows are kept, the customer ends on the highest level, and the counters of
the program end at zero. -/
theorem tier_of_run_toTheTop :
    let start : Profile ℚ := { Profile.empty with settings := Sample.settings }
    let s : Session (MemoryStore ℚ) ℚ := ⟨.ofScheme Sample.scheme, ⟨start, ⟨start⟩⟩, []⟩
    let profile (n : ℕ) := (s.after (tierSteps.take n)).account.profile
    let granted (n : ℕ) := (profile n).ledger.get (.tierReward "voyage")
    (∀ n, Sample.tierProgram.WithinRow (profile n)) ∧
      (s.after tierSteps).account.profile.settings.tierLevel.toNat = min (1 + 2) 2 ∧
      Sample.tierProgram.MovedUp (profile 3) (profile 4) ∧
      [granted 1, granted 2, granted 3, granted 4] = [500, 0, 400, 0] := by
  intro start s profile granted
  have hregular : ∀ step ∈ tierSteps, step.isRegular = true := by decide +kernel
  obtain ⟨hrun, hexact⟩ := tier_of_run
  obtain ⟨hsteps, hlevel⟩ := hrun s Sample.tierProgram tierSteps rfl hregular
  refine ⟨?_, ?_, ?_, by decide +kernel⟩
  · have hcaps : ∀ row ∈ (Sample.tierProgram : TierProgram ℚ).levels, 0 ≤ row.cap := by
      decide +kernel
    refine hexact s Sample.tierProgram tierSteps rfl hregular hcaps (by decide +kernel) ?_
    intro row hrow
    exact hcaps row (List.mem_of_find?_eq_some hrow)
  · have hmoves : s.movesUpIn tierSteps = 2 := by decide +kernel
    rw [hlevel, hmoves]
    rfl
  · have hmove := hsteps 3 (by decide)
    rw [if_pos (by decide +kernel)] at hmove
    exact hmove

end Session

end CardRewards
