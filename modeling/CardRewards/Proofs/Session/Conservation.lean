import CardRewards.Proofs.Quote.Gate
import CardRewards.Proofs.Quote.Multiplicity
import CardRewards.Proofs.Quote.Reward
import CardRewards.Proofs.Quote.Usage
import CardRewards.Proofs.Session.Tier
import Mathlib.Algebra.BigOperators.Group.Finset.Piecewise
import Mathlib.Algebra.Order.BigOperators.Group.List
import Mathlib.Tactic.NormNum

/-!
# What a run conserves

A run that evaluates and books what it evaluated, and sets no counter back, moves the totals and the
counters together (`Session.Grown`): what is booked is added to the total spend and to the counters
of the cards alike, once each, and to what counts for a mission no more often than to all that is
spent under it. That is so from step to step, and the steps add up (`Session.grown_after`).

No counter falls on the way. So a mission gate that has opened stays open, and a cap that is used up
stays used up (`Session.conservation`).
-/

namespace CardRewards

/-! ## Growing -/

namespace RuleBook

variable {b : RuleBook ℚ}

/-- The ids of the cards. -/
def cardIds (b : RuleBook ℚ) : Finset String := (b.scheme.cards.map (·.id)).toFinset

/-- No cap names the counter of a card. -/
def CardsApart (b : RuleBook ℚ) : Prop := ∀ card ∈ b.scheme.cards, .cardSpend card.id ∉ b.capKeys

instance (b : RuleBook ℚ) : Decidable b.CardsApart :=
  inferInstanceAs (Decidable (∀ card ∈ b.scheme.cards, _))

/-- No cap names a counter of the mission. -/
def MissionApart (b : RuleBook ℚ) (mission : String) : Prop :=
  .missionTotal mission ∉ b.capKeys ∧ .missionEligible mission ∉ b.capKeys

instance (b : RuleBook ℚ) (mission : String) : Decidable (b.MissionApart mission) :=
  inferInstanceAs (Decidable (_ ∧ _))

/-- How a profile has changed when some quotes have been booked on it and nothing was set back. -/
structure Grown (b : RuleBook ℚ) (p : Profile ℚ) (booked : List (Quote ℚ)) (p' : Profile ℚ) :
    Prop where
  spend : p'.totals.spend = p.totals.spend + (booked.map (·.amount)).sum
  count : p'.totals.count = p.totals.count + .ofNat booked.length
  counters : ∀ key, p.ledger.get key ≤ p'.ledger.get key
  cards : b.CardsApart →
    ∑ id ∈ b.cardIds, p'.ledger.get (.cardSpend id) =
      ∑ id ∈ b.cardIds, p.ledger.get (.cardSpend id) + (booked.map (·.amount)).sum
  missions : ∀ mission, b.MissionApart mission →
    p'.ledger.get (.missionEligible mission) - p.ledger.get (.missionEligible mission) ≤
      p'.ledger.get (.missionTotal mission) - p.ledger.get (.missionTotal mission)

/-- A profile that keeps its ledger and totals has not grown. -/
theorem grown_nil {p p' : Profile ℚ} (hledger : p'.ledger = p.ledger)
    (htotals : p'.totals = p.totals) : b.Grown p [] p' where
  spend := by rw [htotals, List.map_nil, List.sum_nil, add_zero]
  count := by rw [htotals, List.length_nil]; exact (UInt64.add_zero _).symm
  counters key := by rw [hledger]
  cards _ := by rw [hledger, List.map_nil, List.sum_nil, add_zero]
  missions mission _ := by rw [hledger, sub_self, sub_self]

theorem Grown.trans {p p' p'' : Profile ℚ} {first rest : List (Quote ℚ)} (h : b.Grown p first p')
    (h' : b.Grown p' rest p'') : b.Grown p (first ++ rest) p'' where
  spend := by rw [h'.spend, h.spend, List.map_append, List.sum_append, add_assoc]
  count := by
    rw [h'.count, h.count, List.length_append, UInt64.ofNat_add, UInt64.add_assoc]
  counters key := (h.counters key).trans (h'.counters key)
  cards apart := by
    rw [h'.cards apart, h.cards apart, List.map_append, List.sum_append, add_assoc]
  missions mission apart := by
    have hfirst := h.missions mission apart
    have hrest := h'.missions mission apart
    linarith

variable {p : Profile ℚ} {card : Card} {amount : ℚ} {rawCategory : String} {mode : DisplayMode}

/-- The amount of a purchase goes to the counter of its card and to that of no other card. -/
theorem sum_cardSpend_book (apart : b.CardsApart) (listed : card ∈ b.scheme.cards) :
    let q := b.quote card amount rawCategory mode p.ledger p.settings
    ∑ id ∈ b.cardIds, (p.book q).ledger.get (.cardSpend id) =
      ∑ id ∈ b.cardIds, p.ledger.get (.cardSpend id) + amount := by
  intro q
  -- of all that the quote charges only its own card's spend has the key of a card
  have hget : ∀ id ∈ b.cardIds, (p.book q).ledger.get (.cardSpend id) =
      p.ledger.get (.cardSpend id) + if card.id = id then amount else 0 := by
    intro id hid
    obtain ⟨other, hother, rfl⟩ := List.mem_map.mp (List.mem_toFinset.mp hid)
    have hcap : .cardSpend other.id ∉ b.capKeysOf card :=
      fun h => apart other hother (b.capKeysOf_subset card h)
    have hkey : CounterKey.cardSpend card.id = .cardSpend other.id ↔ card.id = other.id :=
      CounterSort.key_inj_right (s := .cardSpend)
    refine (Ledger.get_post _ _ _).trans (congrArg _ ?_)
    refine (congrArg List.sum (deltas_generated (s := .cardSpend) hcap)).trans ?_
    by_cases h : card.id = other.id
    · rw [if_pos h]
      simp only [if_pos (hkey.mpr h), List.sum_singleton]
    · rw [if_neg h]
      simp only [if_neg (mt hkey.mp h), List.sum_nil]
  have hmem : card.id ∈ b.cardIds := List.mem_toFinset.mpr (List.mem_map_of_mem listed)
  rw [Finset.sum_congr rfl hget, Finset.sum_add_distrib, Finset.sum_ite_eq_of_mem _ _ _ hmem]

/-- A purchase counts for a mission no more often than it is spent under it. -/
theorem total_eligible_le {mission : String} (apart : b.MissionApart mission) (hamount : 0 ≤ amount)
    (ledger : Ledger ℚ) (settings : Settings) :
    let charges := (b.quote card amount rawCategory mode ledger settings).charges
    Charge.total charges (.missionEligible mission) ≤
      Charge.total charges (.missionTotal mission) := by
  intro charges
  have htotal : Charge.deltas charges (.missionTotal mission) = _ :=
    deltas_total fun h => apart.1 (b.capKeysOf_subset card h)
  have heligible : Charge.deltas charges (.missionEligible mission) = _ :=
    deltas_eligible fun h => apart.2 (b.capKeysOf_subset card h)
  rw [Charge.total_eq_sum, Charge.total_eq_sum, heligible, htotal, List.sum_replicate,
    List.sum_replicate]
  -- whoever counts the purchase observes the mission
  refine nsmul_le_nsmul_left hamount (List.countP_mono_left fun r _ h => ?_)
  exact (Bool.and_eq_true_iff.mp h).1

theorem grown_book (listed : card ∈ b.scheme.cards) (hamount : 0 ≤ amount) :
    let q := b.quote card amount rawCategory mode p.ledger p.settings
    b.Grown p [q] (p.book q) where
  spend := by
    rw [List.map_singleton, List.sum_singleton]
    rfl
  count := rfl
  counters key := by
    show p.ledger.get key ≤ (p.ledger.post _).get key
    rw [Ledger.get_post]
    exact le_add_of_nonneg_right (Charge.total_nonneg (Quote.delta_nonneg hamount) key)
  cards apart := by
    rw [sum_cardSpend_book apart listed, List.map_singleton, List.sum_singleton]
    rfl
  missions mission apart := by
    show (p.ledger.post _).get _ - _ ≤ (p.ledger.post _).get _ - _
    rw [Ledger.get_post, Ledger.get_post, add_sub_cancel_left, add_sub_cancel_left]
    exact total_eligible_le apart hamount p.ledger p.settings

/-- Every step that is not stale and sets nothing back makes a profile grow by what it books. -/
theorem grown_of_moves {step : Step ℚ} {booked : Option (Quote ℚ)} {p' : Profile ℚ}
    (hmoves : b.Moves p step booked p') (hkeeps : step.resets = false) :
    b.Grown p booked.toList p' := by
  cases hmoves with
  | idle => exact grown_nil rfl rfl
  | booked _ card amount rawCategory mode listed vetted =>
    exact grown_book listed (not_le.mp (not_le_zero_of_vet vetted)).le
  | chosen => exact grown_nil rfl rfl
  | advanced | reset => simp [Step.resets] at hkeeps

end RuleBook

theorem Session.grown_after {σ : Type} [ProfileStore σ ℚ] {steps : List (Step ℚ)}
    (fresh : ∀ step ∈ steps, step.isStale = false) (keeps : ∀ step ∈ steps, step.resets = false)
    (s : Session σ ℚ) :
    s.book.Grown s.account.profile (s.bookings steps) (s.after steps).account.profile := by
  refine bookings_induction (P := fun qs p => s.book.Grown s.account.profile qs p) [] rfl fresh ?_
    (RuleBook.grown_nil rfl rfl)
  intro step hstep qs p booked p' hmoves hgrown
  exact hgrown.trans (RuleBook.grown_of_moves hmoves (keeps step hstep))

/-! ## What a growing ledger leaves as it is -/

namespace Occasion

section

variable {α : Type} [Amount α] {o : Occasion α} {r : Rule α}

/-- Only a cap that leaves nothing makes a flat rule show that it is capped. -/
theorem exhausted_of_capped {rate : α} {cap : Cap α}
    (h : (o.flat r rate (some cap)).line.map (·.status) = some .capped) :
    o.capHeadroom cap ≤ 0 := by
  unfold capHeadroom
  refine Decidable.byContradiction fun hrest => ?_
  cases hmode : cap.mode with
  | reward =>
    simp only [hmode] at hrest
    simp only [flat, hmode, rewardCapped, if_neg hrest] at h
    split at h <;> simp [Contribution.ofLine, Rule.noted, Rule.line] at h
  | spending =>
    simp only [hmode] at hrest
    simp only [flat, hmode, spendingCapped, if_neg hrest] at h
    split at h <;> simp [Contribution.ofLine, Rule.noted, Rule.line] at h

end

variable {o : Occasion ℚ} {r : Rule ℚ} {ledger : Ledger ℚ}

theorem passed_of_grown (hgrown : ∀ key, o.ledger.get key ≤ ledger.get key)
    (h : o.gateState r = .passed) : { o with ledger }.gateState r = .passed := by
  obtain ⟨hadmits, hreached⟩ := gateState_eq_passed_iff.mp h
  refine gateState_eq_passed_iff.mpr ⟨⟨hadmits.toggle, hadmits.minSingleSpend, hadmits.minSpend⟩,
    fun gate hgate hbelow => hreached gate hgate ?_⟩
  exact (hgrown gate.key).trans_lt hbelow

/-- A flat rule that shows that it is capped shows the same when more has been used up. -/
theorem ruleContribution_of_capped {composition : Composition} {rate : ℚ} {cap : Cap ℚ}
    {replaced replaced' : Bool} (hgrown : ∀ key, o.ledger.get key ≤ ledger.get key)
    (heffect : r.effect = .flat composition rate (some cap))
    (h : (o.ruleContribution replaced r).line.map (·.status) = some .capped) :
    { o with ledger }.ruleContribution replaced' r = o.ruleContribution replaced r := by
  have hdefect : r.defect? = none := by simp [Rule.defect?, heffect]
  unfold ruleContribution at h ⊢
  simp only [hdefect] at h ⊢
  cases hstate : o.gateState r with
  | failed => simp [hstate, Contribution.nothing] at h
  | locked progress required => simp [hstate, Contribution.ofLine, Rule.noted] at h
  | passed =>
    simp only [hstate, passed_of_grown hgrown hstate, applied, heffect] at h ⊢
    by_cases hhits : o.hits r = true
    · have hexhausted : o.capHeadroom cap ≤ 0 := exhausted_of_capped (by rwa [if_pos hhits] at h)
      have hexhausted' : { o with ledger }.capHeadroom cap ≤ 0 :=
        (capHeadroom_anti hgrown cap).trans hexhausted
      rw [flat_of_exhausted hexhausted, flat_of_exhausted hexhausted']
      rfl
    · simp [if_neg hhits, Contribution.nothing] at h

end Occasion

/-! ## Runs -/

namespace Session

variable {σ : Type} [ProfileStore σ ℚ] {s : Session σ ℚ} {steps : List (Step ℚ)}

theorem after_take_of_le {i j : ℕ} (h : i ≤ j) (s : Session σ ℚ) (steps : List (Step ℚ)) :
    s.after (steps.take j) = (s.after (steps.take i)).after ((steps.take j).drop i) := by
  have hsplit : steps.take j = steps.take i ++ (steps.take j).drop i := by
    conv_lhs => rw [← List.take_append_drop i (steps.take j), List.take_take, Nat.min_eq_left h]
  unfold after
  rw [← List.foldl_append, ← hsplit]

/-- No counter falls between two points of a run. -/
theorem get_le_of_le (fresh : ∀ step ∈ steps, step.isStale = false)
    (keeps : ∀ step ∈ steps, step.resets = false) {i j : ℕ} (h : i ≤ j) (key : CounterKey) :
    (s.after (steps.take i)).account.profile.ledger.get key ≤
      (s.after (steps.take j)).account.profile.ledger.get key := by
  have hmem : ∀ step ∈ (steps.take j).drop i, step ∈ steps :=
    fun step hstep => List.mem_of_mem_take (List.mem_of_mem_drop hstep)
  rw [after_take_of_le h s steps]
  exact (grown_after (fun step hstep => fresh step (hmem step hstep))
    (fun step hstep => keeps step (hmem step hstep)) (s.after (steps.take i))).counters key

/-- **What a run conserves** that evaluates and books what it evaluated, whatever the store does.
With exact amounts the total spend grows by the amounts of the quotes booked, and so do the counters
of all cards together, if no cap names one of them; the count grows by their number; what counts for
a mission grows no more than what is spent under it, if no cap names these counters. No counter ever
falls. So a rule whose mission gate has let it apply is never locked by it again, and a flat rule
that shows that its cap leaves nothing shows the same for the same purchase ever after.

The count has 64 bits and wraps around at 2⁶⁴, as in a release build. It is the number of bookings
as long as that stays below. -/
theorem conservation (fresh : ∀ step ∈ steps, step.isStale = false)
    (keeps : ∀ step ∈ steps, step.resets = false) :
    let b := s.book
    let booked := s.bookings steps
    let before := s.account.profile
    let after := (s.after steps).account.profile
    let ledger (n : ℕ) := (s.after (steps.take n)).account.profile.ledger
    after.totals.spend - before.totals.spend = (booked.map (·.amount)).sum ∧
    (b.CardsApart → ∑ id ∈ b.cardIds,
        (after.ledger.get (.cardSpend id) - before.ledger.get (.cardSpend id)) =
      (booked.map (·.amount)).sum) ∧
    (after.totals.count = before.totals.count + .ofNat booked.length ∧
      (before.totals.count.toNat + booked.length < 2 ^ 64 →
        after.totals.count.toNat = before.totals.count.toNat + booked.length)) ∧
    (∀ mission, b.MissionApart mission →
      after.ledger.get (.missionEligible mission) - before.ledger.get (.missionEligible mission) ≤
        after.ledger.get (.missionTotal mission) - before.ledger.get (.missionTotal mission)) ∧
    ∀ i j, i ≤ j →
      (∀ key, (ledger i).get key ≤ (ledger j).get key) ∧
      (∀ r card amount rawCategory settings,
        (b.occasion card amount rawCategory (ledger i) settings).gateState r = .passed →
        ∀ card' amount' rawCategory' settings' progress required,
          (b.occasion card' amount' rawCategory' (ledger j) settings').gateState r ≠
            .locked progress required) ∧
      ∀ card, ∀ r ∈ b.rulesOf card, ∀ composition rate cap,
        r.effect = .flat composition rate (some cap) → ∀ amount rawCategory mode settings,
          let o (n : ℕ) := b.occasion card amount rawCategory (ledger n) settings
          let part (n : ℕ) := (o n).ruleContribution (b.replacer? (o n) card).isSome r
          (part i).line.map (·.status) = some .capped →
            part j = part i ∧ ∀ line ∈ (part i).line,
              line ∈ (b.quote card amount rawCategory mode (ledger j) settings).lines := by
  intro b booked before after ledger
  have hgrown : b.Grown before booked after := grown_after fresh keeps s
  refine ⟨?_, fun apart => ?_, ⟨hgrown.count, fun hfits => ?_⟩, hgrown.missions, fun i j hij => ?_⟩
  · rw [hgrown.spend, add_sub_cancel_left]
  · rw [Finset.sum_sub_distrib, hgrown.cards apart, add_sub_cancel_left]
  · rw [hgrown.count, UInt64.toNat_add, UInt64.toNat_ofNat', Nat.add_mod_mod]
    exact Nat.mod_eq_of_lt hfits
  · have hcounters (key : CounterKey) : (ledger i).get key ≤ (ledger j).get key :=
      get_le_of_le fresh keeps hij key
    refine ⟨hcounters, ?_, ?_⟩
    · intro r card amount rawCategory settings hpassed card' amount' rawCategory' settings'
        progress required hlocked
      -- what the gate requires was reached then, and the counter has not fallen since
      obtain ⟨-, hreached⟩ := Occasion.gateState_eq_passed_iff.mp hpassed
      obtain ⟨-, -, hbelow, gate, hgate, rfl, rfl⟩ := Occasion.gateState_eq_locked_iff.mp hlocked
      exact hreached gate hgate ((hcounters gate.key).trans_lt hbelow)
    · intro card r hr composition rate cap heffect amount rawCategory mode settings o part hcapped
      have hsame : part j = part i :=
        Occasion.ruleContribution_of_capped (o := o i) hcounters heffect hcapped
      refine ⟨hsame, fun line hline => ?_⟩
      rw [← hsame] at hline
      exact RuleBook.line_mem_quote hr amount rawCategory mode (ledger j) settings line hline

/-- A card that counts dining for a mission and grants a capped rate on it, and one with a bonus
that the mission locks. -/
def conservationScheme : Scheme ℚ :=
  { Sample.single
      [{ RuleSpec.ofKind "observer" .missionObserver with
          missionId := some "m"
          categories := ["dining"] },
        (RuleSpec.flat "dining" (1 / 10) ["dining"]).capped .reward "k" 10,
        (RuleSpec.flat "bonus" (3 / 100) ["travel"]).gatedByMission "m" 200] with
    cards := [.held "daily" "cash" ["observer", "dining"], .held "airline" "cash" ["bonus"]] }

/-- A purchase that uses up the cap and opens the gate, one on a card that is not there, and one
more on each card. -/
def conservationSteps : List (Step ℚ) :=
  [.commitCard "daily" ⟨"dining", 200, .cash⟩, .commitCard "lost" ⟨"dining", 70, .cash⟩,
    .commitCard "daily" ⟨"travel", 100, .cash⟩, .commitCard "airline" ⟨"travel", 50, .cash⟩]

/-- Three of the four purchases are booked, 350 in all, 200 of them counting for the mission. The
cap that the first one uses up is shown as used up in the end, and the gate that it opens stays
open. -/
theorem conservation_usedUp :
    let s : Session (MemoryStore ℚ) ℚ := ⟨.ofScheme conservationScheme, ⟨.empty, ⟨.empty⟩⟩, []⟩
    let ledger := (s.after (conservationSteps.take 4)).account.profile.ledger
    let daily : Card := .held "daily" "cash" ["observer", "dining"]
    let dining : Rule ℚ := .ofSpec
      ((RuleSpec.flat "dining" (1 / 10) ["dining"]).capped .reward "k" 10)
    let bonus : Rule ℚ := .ofSpec
      ((RuleSpec.flat "bonus" (3 / 100) ["travel"]).gatedByMission "m" 200)
    (s.after conservationSteps).account.profile.totals.spend - s.account.profile.totals.spend = 350 ∧
      ∑ id ∈ s.book.cardIds, ((s.after conservationSteps).account.profile.ledger.get (.cardSpend id) -
        s.account.profile.ledger.get (.cardSpend id)) = 350 ∧
      (s.after conservationSteps).account.profile.totals.count.toNat =
        s.account.profile.totals.count.toNat + 3 ∧
      dining.noted .capped 0 "额度已用尽 (k)" ∈
        (s.book.quote daily 40 "dining" .cash ledger .empty).lines ∧
      (s.book.occasion (.held "airline" "cash" ["bonus"]) 50 "travel" ledger .empty).gateState
        bonus ≠ .locked 0 200 := by
  intro s ledger daily dining bonus
  have hfresh : ∀ step ∈ conservationSteps, step.isStale = false := by decide +kernel
  have hkeeps : ∀ step ∈ conservationSteps, step.resets = false := by decide +kernel
  obtain ⟨hspend, hcards, ⟨-, hcount⟩, -, hlater⟩ := conservation (s := s) hfresh hkeeps
  have hbooked : (s.bookings conservationSteps).map (·.amount) = [200, 100, 50] := by
    decide +kernel
  have hsum : ((s.bookings conservationSteps).map (·.amount)).sum = 350 := by
    rw [hbooked]
    norm_num
  have hlength : (s.bookings conservationSteps).length = 3 := by
    rw [← List.length_map (f := fun q : Quote ℚ => q.amount), hbooked]
    rfl
  obtain ⟨-, hgate, hcap⟩ := hlater 1 4 (by decide)
  rw [hlength] at hcount
  obtain ⟨-, hline⟩ := hcap daily dining (by decide +kernel) .add (1 / 10)
    ⟨.configured "k", 10, .reward, none⟩ (by decide +kernel) 40 "dining" .cash .empty
    (by decide +kernel)
  refine ⟨hspend.trans hsum, (hcards (by decide +kernel)).trans hsum, hcount (by decide),
    hline _ (by decide +kernel), ?_⟩
  exact hgate bonus (.held "airline" "cash" ["bonus"]) 50 "travel" .empty (by decide +kernel)
    _ _ _ _ _ _

end Session

end CardRewards
