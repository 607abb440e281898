import CardRewards.Proofs.Posting
import CardRewards.Proofs.Quote.Charges
import CardRewards.Quote.Rank
import CardRewards.Scheme.Sample

/-!
# Evaluation and booking agree

A quote says which counters booking it will move (`Quote.touchedKeys`), and booking moves the
counters that its charges name. The two are computed apart, and they differ on a quote that carries
a reward of nothing for a cap: the cap's counter is announced and not written. No quote that comes
from evaluation is of that kind, because a rule charges a reward only when there is one
(`RewardPositive`); showing a quote in another mode or ranking it changes nothing about that. So
for the quotes that a rule book hands out (`RuleBook.Offers`) the two agree on every profile, also
on one that the quote was not evaluated for: `book_writes_touchedKeys`.
-/

namespace CardRewards

namespace Quote

variable {α : Type} [Amount α]

/-- A reward that the quote carries for a cap is more than nothing. -/
def RewardPositive (q : Quote α) : Prop :=
  ∀ key second reward, q.capCharge = .reward key second reward → 0 < reward

theorem rewardPositive_project {q : Quote α} (h : q.RewardPositive) (mode : DisplayMode) :
    (q.project mode).RewardPositive := h

/-! ## The keys of charges -/

theorem keys_capCharges {q : Quote α} (h : q.RewardPositive) :
    q.capCharges.map (·.key) = capKeys q.capCharge := by
  unfold capCharges capKeys
  cases hcap : q.capCharge with
  | none => rfl
  | spending key => rfl
  | reward key second reward =>
    have hpos : 0 < reward := h key second reward hcap
    simp only [if_pos hpos]
    cases second <;> rfl

theorem keys_tierCharges (q : Quote α) : q.tierCharges.map (·.key) = tierKeys q.tierCharge := by
  unfold tierCharges tierKeys
  cases q.tierCharge with
  | none => rfl
  | some charge =>
    by_cases hreward : 0 < charge.reward <;> cases hqualifies : charge.qualifies <;>
      simp [hreward, hqualifies]

omit [Amount α] in
theorem keys_missionCharges (q : Quote α) :
    q.missionCharges.map (·.key) = missionKeys q.missionTags := by
  unfold missionCharges missionKeys
  rw [List.map_flatMap]
  congr 1
  funext tag
  cases tag.eligible <;> simp

/-- Unless a quote carries a reward of nothing, its charges go to the counters it announces, in the
same order. -/
theorem keys_charges {q : Quote α} (h : q.RewardPositive) :
    q.charges.map (·.key) = q.touchedKeys := by
  simp only [charges, touchedKeys, List.map_append, List.map_cons, keys_capCharges h,
    keys_tierCharges, keys_missionCharges]

theorem keys_capCharges_sublist (q : Quote α) :
    (q.capCharges.map (·.key)).Sublist (capKeys q.capCharge) := by
  unfold capCharges capKeys
  cases q.capCharge with
  | none => exact .slnil
  | spending key => exact .refl _
  | reward key second reward =>
    by_cases hpos : 0 < reward
    · simp only [if_pos hpos]
      cases second <;> exact .refl _
    · simp only [if_neg hpos]
      exact List.nil_sublist _

/-- The charges of any quote go to counters that it announces, in the same order. -/
theorem keys_charges_sublist (q : Quote α) : (q.charges.map (·.key)).Sublist q.touchedKeys := by
  simp only [charges, touchedKeys, List.map_append, List.map_cons, keys_tierCharges,
    keys_missionCharges]
  exact ((q.keys_capCharges_sublist.cons_cons _).append_right _).append_right _

end Quote

namespace RuleBook

variable {α : Type} [Amount α]

/-- The quotes that a rule book hands out: as evaluated, shown in another mode, or taken from a
ranking. -/
inductive Offers (b : RuleBook α) : Quote α → Prop
  | evaluated (card : Card) (amount : α) (rawCategory : String) (mode : DisplayMode)
      (ledger : Ledger α) (settings : Settings) :
      Offers b (b.quote card amount rawCategory mode ledger settings)
  | shown {q : Quote α} (offered : Offers b q) (mode : DisplayMode) : Offers b (q.project mode)
  | ranked {quotes : List (Quote α)} (offered : ∀ q ∈ quotes, Offers b q) (mode : DisplayMode)
      {q : Quote α} (listed : q ∈ Quote.rank quotes mode) : Offers b q

theorem rewardPositive_of_offers {b : RuleBook α} {q : Quote α} (h : b.Offers q) :
    q.RewardPositive := by
  induction h with
  | evaluated card amount rawCategory mode ledger settings =>
    intro key second reward hcharge
    obtain ⟨r, -, rate, cap, hgrants, -, -⟩ := of_capCharge_reward hcharge
    exact hgrants.pos
  | shown _ mode ih => exact Quote.rewardPositive_project ih mode
  | ranked _ mode listed ih =>
    -- a ranking lists the quotes it was given, each shown in its mode
    obtain ⟨q, hq, rfl⟩ := List.mem_map.mp (List.mem_mergeSort.mp listed)
    exact Quote.rewardPositive_project (ih q hq) mode

/-- **Booking writes what the quote announces**: for every quote that a rule book hands out and
every profile, the receipt lists exactly the announced counters in the announced order; afterwards
each of them is present, every other counter has its value and its presence from before, and the
settings are the same. A reward that the quote carries is never passed over. -/
theorem book_writes_touchedKeys {b : RuleBook α} {q : Quote α} (offered : b.Offers q)
    (p : Profile α) :
    (p.receipt q).updated.map Prod.fst = q.touchedKeys ∧
      (∀ key ∉ q.touchedKeys,
        (p.book q).ledger.get key = p.ledger.get key ∧
          (p.book q).ledger.contains key = p.ledger.contains key) ∧
      (∀ key ∈ q.touchedKeys, (p.book q).ledger.contains key = true) ∧
      (p.book q).settings = p.settings ∧
      ∀ key second reward, q.capCharge = .reward key second reward →
        0 < reward ∧ ⟨key, reward⟩ ∈ q.charges ∧ ∀ other ∈ second, ⟨other, reward⟩ ∈ q.charges := by
  have hpositive := rewardPositive_of_offers offered
  have hkeys := Quote.keys_charges hpositive
  refine ⟨?_, ?_, ?_, rfl, ?_⟩
  · rw [← hkeys]
    exact Ledger.keys_postings q.charges p.ledger
  · intro key hkey
    rw [← hkeys] at hkey
    refine ⟨Ledger.get_post_of_not_mem hkey p.ledger, ?_⟩
    show (p.ledger.post q.charges).contains key = p.ledger.contains key
    rw [Ledger.contains_post, decide_eq_false hkey, Bool.false_or]
  · intro key hkey
    rw [← hkeys] at hkey
    show (p.ledger.post q.charges).contains key = true
    rw [Ledger.contains_post, decide_eq_true hkey, Bool.true_or]
  · intro key second reward hcharge
    have hpos : 0 < reward := hpositive key second reward hcharge
    have hcaps : q.capCharges =
        ⟨key, reward⟩ :: second.toList.map fun other => ⟨other, reward⟩ := by
      simp only [Quote.capCharges, hcharge, if_pos hpos]
    refine ⟨hpos, ?_, ?_⟩
    · simp [Quote.charges, hcaps]
    · intro other hother
      rw [Option.mem_def] at hother
      simp [Quote.charges, hcaps, hother]

/-- A dining rule whose rewards count towards a cap of its own and a cap shared with others. -/
def sharedCapBook : RuleBook ℚ :=
  .ofScheme (Sample.single
    [((RuleSpec.flat "dining" (1 / 10) ["dining"]).capped .reward "k" 300).cappedAgain
      "shared" 200])

/-- A purchase beyond the shared cap, shown in miles and booked on an empty profile, writes the
card's counter and both caps, as announced. -/
theorem book_writes_touchedKeys_sharedCap :
    let q := (sharedCapBook.quote (.held "card" "cash" ["dining"]) 5000 "dining" .cash .empty
      .empty).project .miles
    sharedCapBook.Offers q ∧
      q.touchedKeys = [.cardSpend "card", .configured "k", .configured "shared"] ∧
      ((Profile.empty : Profile ℚ).receipt q).updated.map Prod.fst = q.touchedKeys ∧
      (Profile.empty.book q).ledger.contains (.configured "other") = false := by
  intro q
  have offered : sharedCapBook.Offers q := .shown (.evaluated ..) .miles
  have hkeys : q.touchedKeys = [.cardSpend "card", .configured "k", .configured "shared"] := by
    decide +kernel
  obtain ⟨hwritten, hothers, -⟩ := book_writes_touchedKeys offered Profile.empty
  refine ⟨offered, hkeys, hwritten, ?_⟩
  rw [(hothers (.configured "other") (by rw [hkeys]; decide)).2]
  rfl

end RuleBook

end CardRewards
