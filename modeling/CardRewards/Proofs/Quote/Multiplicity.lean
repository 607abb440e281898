import CardRewards.Proofs.Quote.Booking
import CardRewards.Proofs.Quote.Counters
import CardRewards.Proofs.Rule.Conflict
import CardRewards.Scheme.Sample
import Mathlib.Algebra.Group.Basic
import Mathlib.Logic.Function.Iterate

/-!
# How often a purchase is charged

Booking a quote writes to a counter once for each charge to it, and there may be several: every
observer of a mission counts the purchase for it, and a cap that names one counter as both of its
own charges it twice. Those are the only ways, where caps do not name counters with generated keys.
The receipt of a card lists no counter twice exactly if neither happens: `receipt_multiplicity`.
-/

namespace CardRewards

/-- One amount for each element that passes a test. -/
theorem flatMap_ite_singleton {β γ : Type} (p : β → Bool) (x : γ) (l : List β) :
    (l.flatMap fun y => if p y then [x] else []) = List.replicate (l.countP p) x := by
  induction l with
  | nil => rfl
  | cons y rest ih =>
    rw [List.flatMap_cons, ih, List.countP_cons]
    by_cases h : p y = true
    · rw [if_pos h, if_pos h, List.replicate_succ]
      rfl
    · rw [if_neg h, if_neg h]
      rfl

theorem foldl_replicate {α : Type} [Amount α] (x : α) (n : ℕ) :
    ∀ start : α, (List.replicate n x).foldl (· + ·) start = (· + x)^[n] start := by
  induction n with
  | zero => intro start; rfl
  | succ n ih => intro start; exact ih (start + x)

/-! ## The charges of a quote -/

/-- Whether a reward is charged to a counter twice: a cap names it as both of its own. -/
def CapCharge.Doubles {α : Type} (charge : CapCharge α) (key : CounterKey) : Prop :=
  ∃ reward, charge = .reward key (some key) reward

namespace Quote

open Charge (deltas deltas_cons)

variable {α : Type} [Amount α]

/-- The amounts that caps charge to a counter: the reward once for each of the two places in which
the counter may be named, or the amount. -/
theorem deltas_capCharges {q : Quote α} (h : q.RewardPositive) (key : CounterKey) :
    deltas q.capCharges key =
      match q.capCharge with
      | .none => []
      | .spending first => if first = key then [q.amount] else []
      | .reward first second reward =>
        (if first = key then [reward] else []) ++ if second = some key then [reward] else [] := by
  unfold capCharges
  cases hcharge : q.capCharge with
  | none => rfl
  | spending first => exact (deltas_cons _ _ _).trans (List.append_nil _)
  | reward first second reward =>
    have hpos : 0 < reward := h first second reward hcharge
    simp only [if_pos hpos]
    rw [deltas_cons]
    cases second with
    | none => rfl
    | some second =>
      rw [Option.toList_some, List.map_singleton, deltas_cons, Charge.deltas_nil, List.append_nil]
      simp only [Option.some.injEq]

/-- A counter that is not named twice is charged one amount or one reward, or nothing. -/
theorem deltas_capCharges_of_not_doubles {q : Quote α} (h : q.RewardPositive) {key : CounterKey}
    (hsingle : ¬ q.capCharge.Doubles key) :
    deltas q.capCharges key = [] ∨
      ∃ delta, deltas q.capCharges key = [delta] ∧
        (delta = q.amount ∨ ∃ first second, q.capCharge = .reward first second delta) := by
  rw [deltas_capCharges h]
  cases hcharge : q.capCharge with
  | none => exact .inl rfl
  | spending first =>
    simp only
    split
    next => exact .inr ⟨q.amount, rfl, .inl rfl⟩
    next => exact .inl rfl
  | reward first second reward =>
    by_cases hfirst : first = key
    · have hsecond : second ≠ some key := fun heq =>
        hsingle ⟨reward, by rw [hcharge, hfirst, heq]⟩
      refine .inr ⟨reward, ?_, .inr ⟨first, second, rfl⟩⟩
      simp only [if_pos hfirst, if_neg hsecond, List.append_nil]
    · simp only [if_neg hfirst, List.nil_append]
      split
      next => exact .inr ⟨reward, rfl, .inr ⟨first, second, rfl⟩⟩
      next => exact .inl rfl

theorem deltas_capCharges_of_doubles {q : Quote α} (h : q.RewardPositive) {key : CounterKey}
    (hdoubles : q.capCharge.Doubles key) :
    ∃ reward, deltas q.capCharges key = [reward, reward] := by
  obtain ⟨reward, hcharge⟩ := hdoubles
  refine ⟨reward, ?_⟩
  rw [deltas_capCharges h, hcharge]
  simp

/-- The tier program charges no counter twice. -/
theorem length_deltas_tierCharges_le (q : Quote α) (key : CounterKey) :
    (deltas q.tierCharges key).length ≤ 1 := by
  cases hcharge : q.tierCharge with
  | none =>
    rw [tierCharges, hcharge]
    exact Nat.zero_le 1
  | some t =>
    rw [deltas_tierCharges hcharge, List.length_append]
    by_cases hreward : 0 < t.reward ∧ CounterKey.tierReward t.programId = key
    · have hspend : ¬ (t.qualifies = true ∧ CounterKey.tierSpend t.programId = key) := fun h =>
        CounterSort.key_ne (s := .tierReward) (t := .tierSpend) (by decide) _ _
          (hreward.2.trans h.2.symm)
      rw [if_pos hreward, if_neg hspend]
      exact Nat.le_refl 1
    · rw [if_neg hreward]
      split <;> simp

section

omit [Amount α]

theorem deltas_missionCharges_total (q : Quote α) (mission : String) :
    deltas q.missionCharges (.missionTotal mission) =
      List.replicate (q.missionTags.countP (·.missionId = mission)) q.amount := by
  rw [deltas_missionCharges, ← flatMap_ite_singleton]
  congr 1
  funext tag
  have hother : CounterKey.missionEligible tag.missionId ≠ .missionTotal mission :=
    CounterSort.key_ne (s := .missionEligible) (t := .missionTotal) (by decide) _ _
  have hkey : CounterKey.missionTotal tag.missionId = .missionTotal mission ↔
      tag.missionId = mission := CounterSort.key_inj_right (s := .missionTotal)
  rw [if_neg fun h : _ ∧ _ => hother h.2, List.append_nil]
  exact if_congr (hkey.trans decide_eq_true_iff.symm) rfl rfl

theorem deltas_missionCharges_eligible (q : Quote α) (mission : String) :
    deltas q.missionCharges (.missionEligible mission) =
      List.replicate (q.missionTags.countP fun tag => tag.missionId = mission && tag.eligible)
        q.amount := by
  rw [deltas_missionCharges, ← flatMap_ite_singleton]
  congr 1
  funext tag
  have hother : CounterKey.missionTotal tag.missionId ≠ .missionEligible mission :=
    CounterSort.key_ne (s := .missionTotal) (t := .missionEligible) (by decide) _ _
  have hkey : CounterKey.missionEligible tag.missionId = .missionEligible mission ↔
      tag.missionId = mission := CounterSort.key_inj_right (s := .missionEligible)
  rw [if_neg hother, List.nil_append]
  refine if_congr ?_ rfl rfl
  rw [Bool.and_eq_true, decide_eq_true_iff, and_comm]
  exact and_congr_left' hkey

end

end Quote

/-! ## The tags of a quote -/

/-- Whether a rule counts a purchase for a mission, in whole or not. -/
def Occasion.observes {α : Type} [Amount α] (o : Occasion α) (mission : String) (r : Rule α) :
    Bool :=
  r.observed? = some mission && (o.gateState r).isPassed

/-- The tag that a rule sets. -/
def Occasion.tag? {α : Type} [Amount α] (o : Occasion α) (r : Rule α) : Option MissionTag :=
  if (o.gateState r).isPassed then r.observed?.map fun mission => ⟨mission, o.hitsOrOpen r⟩
  else none

theorem GateState.isPassed_iff {α : Type} {g : GateState α} : g.isPassed = true ↔ g = .passed := by
  cases g <;> simp [isPassed]

theorem Occasion.tag?_eq_some_iff {α : Type} [Amount α] {o : Occasion α} {r : Rule α}
    {tag : MissionTag} :
    o.tag? r = some tag ↔ ∃ mission, r.effect = .observer mission ∧ o.gateState r = .passed ∧
      tag = ⟨mission, o.hitsOrOpen r⟩ := by
  unfold tag?
  rw [← GateState.isPassed_iff]
  split
  next hpassed =>
    rw [Option.map_eq_some_iff]
    refine exists_congr fun mission => ?_
    rw [Rule.observed?_eq_some_iff]
    exact ⟨fun h => ⟨h.1, hpassed, h.2.symm⟩, fun h => ⟨h.1, h.2.2.symm⟩⟩
  next hpassed =>
    constructor
    · intro h
      exact nomatch h
    · rintro ⟨mission, -, h, -⟩
      exact absurd h hpassed

theorem Occasion.counts_tag? {α : Type} [Amount α] (o : Occasion α) (mission : String)
    (r : Rule α) :
    ((o.tag? r).map fun tag => decide (tag.missionId = mission)).getD false =
      o.observes mission r := by
  unfold tag? observes
  cases (o.gateState r).isPassed <;> cases r.observed? <;> simp

theorem Occasion.countsAsEligible_tag? {α : Type} [Amount α] (o : Occasion α) (mission : String)
    (r : Rule α) :
    ((o.tag? r).map fun tag => decide (tag.missionId = mission) && tag.eligible).getD false =
      (o.observes mission r && o.hitsOrOpen r) := by
  unfold tag? observes
  cases (o.gateState r).isPassed <;> cases r.observed? <;> simp

namespace RuleBook

variable {α : Type} [Amount α] {b : RuleBook α} {card : Card}

theorem missionTag_contribution (o : Occasion α) (replaced : Bool)
    (position : String × Option (Rule α)) :
    (o.contribution replaced position).missionTag = position.2.bind o.tag? := by
  refine Option.ext fun tag => ?_
  rw [Occasion.missionTag_eq_some_iff, Option.bind_eq_some_iff]
  refine exists_congr fun r => ?_
  rw [Occasion.tag?_eq_some_iff]
  exact exists_and_left

/-- The tags of a quote are those of the rules of the card, in order. -/
theorem missionTags_quote (b : RuleBook α) (card : Card) (amount : α) (rawCategory : String)
    (mode : DisplayMode) (ledger : Ledger α) (settings : Settings) :
    (b.quote card amount rawCategory mode ledger settings).missionTags =
      (b.rulesOf card).filterMap
        (b.occasion card amount rawCategory ledger settings).tag? := by
  show Quote.tagsOf (b.contributions _ card) = _
  rw [Quote.tagsOf, contributions, rulesOf, List.filterMap_map, List.filterMap_filterMap]
  exact List.filterMap_congr fun position _ => missionTag_contribution _ _ position

/-! ## How often each counter is charged -/

open Charge (deltas deltas_eq_nil)

variable {amount : α} {rawCategory : String} {mode : DisplayMode} {ledger : Ledger α}
  {settings : Settings} {key : CounterKey}

theorem deltas_cardSpend (apart : b.CapsApart card) :
    deltas (b.quote card amount rawCategory mode ledger settings).charges (.cardSpend card.id) =
      [amount] := by
  have hmem : .cardSpend card.id ∈ b.generatedKeysOf card := List.mem_cons_self ..
  exact (deltas_generated (s := .cardSpend) (apart.not_mem_capKeysOf hmem)).trans (if_pos rfl)

theorem length_deltas_of_mem_tierKeys (apart : b.CapsApart card) (h : key ∈ b.tierKeys) :
    (deltas (b.quote card amount rawCategory mode ledger settings).charges key).length ≤ 1 := by
  have hlength (q : Quote α) : (deltas q.tierCharges key).length ≤ 1 :=
    q.length_deltas_tierCharges_le key
  have hcap := apart.not_mem_capKeysOf (b.tierKeys_subset card h)
  obtain ⟨program, -, h⟩ := List.mem_flatMap.mp h
  rcases List.mem_cons.mp h with rfl | h
  · exact (congrArg List.length (deltas_generated (s := .tierReward) hcap)).trans_le (hlength _)
  · obtain rfl := List.mem_singleton.mp h
    exact (congrArg List.length (deltas_generated (s := .tierSpend) hcap)).trans_le (hlength _)

/-- The total of a mission is charged once for each of its observers that apply, if no cap of the
card names the counter. -/
theorem deltas_total {mission : String} (apart : .missionTotal mission ∉ b.capKeysOf card) :
    let o := b.occasion card amount rawCategory ledger settings
    deltas (b.quote card amount rawCategory mode ledger settings).charges (.missionTotal mission) =
      List.replicate ((b.rulesOf card).countP (o.observes mission)) amount := by
  intro o
  refine (deltas_generated (s := .missionTotal) apart).trans ?_
  refine (Quote.deltas_missionCharges_total _ _).trans ?_
  rw [missionTags_quote, List.countP_filterMap]
  exact congrArg (fun p => List.replicate ((b.rulesOf card).countP p) amount)
    (funext fun r => o.counts_tag? mission r)

/-- What counts for a mission is charged once for each of its observers that apply and match, if no
cap of the card names the counter. -/
theorem deltas_eligible {mission : String} (apart : .missionEligible mission ∉ b.capKeysOf card) :
    let o := b.occasion card amount rawCategory ledger settings
    deltas (b.quote card amount rawCategory mode ledger settings).charges
        (.missionEligible mission) =
      List.replicate ((b.rulesOf card).countP fun r => o.observes mission r && o.hitsOrOpen r)
        amount := by
  intro o
  refine (deltas_generated (s := .missionEligible) apart).trans ?_
  refine (Quote.deltas_missionCharges_eligible _ _).trans ?_
  rw [missionTags_quote, List.countP_filterMap]
  exact congrArg (fun p => List.replicate ((b.rulesOf card).countP p) amount)
    (funext fun r => o.countsAsEligible_tag? mission r)

theorem deltas_missionTotal (apart : b.CapsApart card)
    {mission : String} (h : mission ∈ b.observedBy card) :
    let o := b.occasion card amount rawCategory ledger settings
    deltas (b.quote card amount rawCategory mode ledger settings).charges (.missionTotal mission) =
      List.replicate ((b.rulesOf card).countP (o.observes mission)) amount := by
  have hmem : .missionTotal mission ∈ b.generatedKeysOf card :=
    b.missionKeysOf_subset card (List.mem_flatMap.mpr ⟨mission, h, by simp⟩)
  exact deltas_total (apart.not_mem_capKeysOf hmem)

theorem deltas_missionEligible (apart : b.CapsApart card)
    {mission : String} (h : mission ∈ b.observedBy card) :
    let o := b.occasion card amount rawCategory ledger settings
    deltas (b.quote card amount rawCategory mode ledger settings).charges
        (.missionEligible mission) =
      List.replicate ((b.rulesOf card).countP fun r => o.observes mission r && o.hitsOrOpen r)
        amount := by
  have hmem : .missionEligible mission ∈ b.generatedKeysOf card :=
    b.missionKeysOf_subset card (List.mem_flatMap.mpr ⟨mission, h, by simp⟩)
  exact deltas_eligible (apart.not_mem_capKeysOf hmem)

theorem mem_capKeysOf_of_doubles
    (h : (b.quote card amount rawCategory mode ledger settings).capCharge.Doubles key) :
    key ∈ b.capKeysOf card := by
  obtain ⟨reward, hcharge⟩ := h
  obtain ⟨r, hr, rate, cap, hgrants, rfl, -⟩ := of_capCharge_reward hcharge
  obtain ⟨composition, heffect⟩ := hgrants.effect
  exact key_mem_capKeysOf hr (by simp [Rule.cap?, heffect])

/-- A mission that no rule of the card observes has no observers there. -/
theorem countP_observes_of_not_mem (o : Occasion α) {mission : String}
    (h : mission ∉ b.observedBy card) : (b.rulesOf card).countP (o.observes mission) = 0 := by
  refine List.countP_eq_zero.mpr fun r hr hobserves => h ?_
  have hobserved := of_decide_eq_true (Bool.and_eq_true_iff.mp hobserves).1
  exact List.mem_dedup.mpr (List.mem_filterMap.mpr ⟨r, hr, hobserved⟩)

/-- No counter is charged twice exactly if no mission has two observers that apply and the cap
charged does not name one counter twice. -/
theorem length_deltas_le_one_iff (apart : b.CapsApart card) :
    let o := b.occasion card amount rawCategory ledger settings
    let q := b.quote card amount rawCategory mode ledger settings
    (∀ key, (deltas q.charges key).length ≤ 1) ↔
      (∀ mission, (b.rulesOf card).countP (o.observes mission) ≤ 1) ∧
        ∀ key, ¬ q.capCharge.Doubles key := by
  intro o q
  have hpositive : q.RewardPositive := rewardPositive_of_offers (.evaluated ..)
  constructor
  · -- a second observer shows at the total of its mission, and a doubled cap at its own counter
    intro honce
    refine ⟨fun mission => ?_, fun key hdoubles => ?_⟩
    · by_cases hmission : mission ∈ b.observedBy card
      · have htotal := honce (.missionTotal mission)
        rwa [deltas_missionTotal apart hmission, List.length_replicate] at htotal
      · exact (countP_observes_of_not_mem o hmission).trans_le (Nat.zero_le 1)
    · obtain ⟨reward, htwice⟩ := Quote.deltas_capCharges_of_doubles hpositive hdoubles
      have hkey := honce key
      rw [deltas_of_cap (apart key (mem_capKeysOf_of_doubles hdoubles)), htwice] at hkey
      exact absurd hkey (Nat.not_succ_le_self 1)
  · -- a counter is one of a cap, or has a generated key, or is not charged
    rintro ⟨hobservers, hsingle⟩ key
    by_cases hcap : key ∈ b.capKeysOf card
    · rw [deltas_of_cap (apart key hcap)]
      rcases Quote.deltas_capCharges_of_not_doubles hpositive (hsingle key) with
        hnone | ⟨delta, honce, -⟩
      · rw [hnone]
        exact Nat.zero_le 1
      · rw [honce]
        exact Nat.le_refl 1
    by_cases hgenerated : key ∈ b.generatedKeysOf card
    · rcases List.mem_append.mp hgenerated with hfixed | hmissions
      · rcases List.mem_cons.mp hfixed with rfl | htier
        · rw [deltas_cardSpend apart]
          exact Nat.le_refl 1
        · exact length_deltas_of_mem_tierKeys apart htier
      · obtain ⟨mission, hmission, hkey⟩ := List.mem_flatMap.mp hmissions
        rcases List.mem_cons.mp hkey with rfl | hkey
        · rw [deltas_missionTotal apart hmission, List.length_replicate]
          exact hobservers mission
        · -- whoever counts the purchase as eligible observes the mission
          obtain rfl := List.mem_singleton.mp hkey
          rw [deltas_missionEligible apart hmission, List.length_replicate]
          exact (List.countP_mono_left fun r _ h => (Bool.and_eq_true_iff.mp h).1).trans
            (hobservers mission)
    · rw [deltas_eq_nil fun charge hcharge heq => ?_]
      · exact Nat.zero_le 1
      · rcases key_of_mem_charges hcharge with h | h
        · exact hcap (heq ▸ h)
        · exact hgenerated (heq ▸ h)

/-- **How often booking a quote writes to each counter**, where no cap of the card names a generated
counter: once to the card's, at most once to those of the tier program, to those of a mission once
for each of its observers whose gates let it apply (and, of what counts for it, match), and to that
of a cap at most once, with one amount or one reward, unless the cap charged names it twice. So the
receipt lists no counter twice exactly if no mission has two such observers and the cap charged does
not name one counter twice. -/
theorem receipt_multiplicity (apart : b.CapsApart card) (amount : α) (rawCategory : String)
    (mode : DisplayMode) (ledger : Ledger α) (settings : Settings) (p : Profile α) :
    let o := b.occasion card amount rawCategory ledger settings
    let q := b.quote card amount rawCategory mode ledger settings
    let written := (p.receipt q).updated.map Prod.fst
    let before := p.ledger.get
    let after := (p.book q).ledger.get
    let observers (mission : String) := (b.rulesOf card).countP (o.observes mission)
    let matching (mission : String) :=
      (b.rulesOf card).countP fun r => o.observes mission r && o.hitsOrOpen r
    (written.count (.cardSpend card.id) = 1 ∧
      after (.cardSpend card.id) = before (.cardSpend card.id) + amount) ∧
    (∀ key ∈ b.tierKeys, written.count key ≤ 1) ∧
    (∀ mission ∈ b.observedBy card,
      written.count (.missionTotal mission) = observers mission ∧
      after (.missionTotal mission) =
        (· + amount)^[observers mission] (before (.missionTotal mission)) ∧
      written.count (.missionEligible mission) = matching mission ∧
      after (.missionEligible mission) =
        (· + amount)^[matching mission] (before (.missionEligible mission))) ∧
    (∀ key ∈ b.capKeysOf card,
      (q.capCharge.Doubles key → written.count key = 2) ∧
      (¬ q.capCharge.Doubles key → written.count key ≤ 1 ∧
        (after key = before key ∨ ∃ delta, after key = before key + delta ∧
          (delta = amount ∨ ∃ first second, q.capCharge = .reward first second delta)))) ∧
    (written.Nodup ↔
      (∀ mission, observers mission ≤ 1) ∧ ∀ key, ¬ q.capCharge.Doubles key) := by
  intro o q written before after observers matching
  have hpositive : q.RewardPositive := rewardPositive_of_offers (.evaluated ..)
  have hcount (key : CounterKey) : written.count key = (deltas q.charges key).length := by
    rw [show written = q.charges.map (·.key) from Ledger.keys_postings _ _, Charge.count_keys]
  have hafter (key : CounterKey) :
      after key = (deltas q.charges key).foldl (· + ·) (before key) :=
    Ledger.get_post_eq_foldl _ _ _
  refine ⟨?_, fun key hkey => ?_, fun mission hmission => ?_, fun key hkey => ⟨?_, ?_⟩, ?_⟩
  · rw [hcount, hafter, deltas_cardSpend apart]
    exact ⟨rfl, rfl⟩
  · rw [hcount]
    exact length_deltas_of_mem_tierKeys apart hkey
  · rw [hcount, hcount, hafter, hafter, deltas_missionTotal apart hmission,
      deltas_missionEligible apart hmission, List.length_replicate, List.length_replicate,
      foldl_replicate, foldl_replicate]
    exact ⟨rfl, rfl, rfl, rfl⟩
  · intro hdoubles
    obtain ⟨reward, htwice⟩ := Quote.deltas_capCharges_of_doubles hpositive hdoubles
    rw [hcount, deltas_of_cap (apart key hkey), htwice]
    rfl
  · intro hsingle
    rw [hcount, hafter, deltas_of_cap (apart key hkey)]
    rcases Quote.deltas_capCharges_of_not_doubles hpositive hsingle with
      hnone | ⟨delta, honce, hdelta⟩
    · rw [hnone]
      exact ⟨Nat.zero_le 1, .inl rfl⟩
    · rw [honce]
      exact ⟨Nat.le_refl 1, .inr ⟨delta, rfl, hdelta⟩⟩
  · refine List.nodup_iff_count_le_one.trans (Iff.trans ?_ (length_deltas_le_one_iff apart))
    exact forall_congr' fun key => by rw [hcount]

/-- Two observers of one mission, the second of them for travel only, and a rule under two caps. -/
def observedTwice : Scheme ℚ :=
  Sample.single
    [{ RuleSpec.ofKind "all" .missionObserver with missionId := some "m" },
      { RuleSpec.ofKind "travel" .missionObserver with
        missionId := some "m"
        categories := ["travel"] },
      ((RuleSpec.flat "dining" (1 / 10) ["dining"]).capped .reward "k" 300).cappedAgain
        "shared" 200]

/-- A dining purchase counts twice towards the mission and once as eligible, and is charged once to
each of the two caps. -/
theorem receipt_multiplicity_observedTwice :
    let b := ofScheme observedTwice
    let card : Card := .held "card" "cash" ["all", "travel", "dining"]
    let q := b.quote card 1000 "dining" .cash .empty .empty
    let written := ((Profile.empty : Profile ℚ).receipt q).updated.map Prod.fst
    b.CapsApart card ∧ ¬ written.Nodup ∧
      (Profile.empty.book q).ledger.get (.missionTotal "m") = (· + 1000)^[2] 0 ∧
      (Profile.empty.book q).ledger.get (.missionEligible "m") = (· + 1000)^[1] 0 ∧
      written.count (.configured "k") ≤ 1 ∧ written.count (.configured "shared") ≤ 1 := by
  intro b card q written
  have apart : b.CapsApart card := by decide +kernel
  obtain ⟨-, -, hmissions, hcaps, hnodup⟩ :=
    receipt_multiplicity apart 1000 "dining" .cash .empty .empty Profile.empty
  obtain ⟨-, htotal, -, heligible⟩ := hmissions "m" (by decide +kernel)
  have hobservers : (b.rulesOf card).countP
      ((b.occasion card 1000 "dining" .empty .empty).observes "m") = 2 := by decide +kernel
  have hmatching : ((b.rulesOf card).countP fun r =>
      (b.occasion card 1000 "dining" .empty .empty).observes "m" r &&
        (b.occasion card 1000 "dining" .empty .empty).hitsOrOpen r) = 1 := by decide +kernel
  have hcharge : q.capCharge =
      .reward (.configured "k") (some (.configured "shared")) 100 := by decide +kernel
  have hsingle (key : CounterKey) : ¬ q.capCharge.Doubles key := by
    rintro ⟨reward, h⟩
    rw [hcharge] at h
    simp only [CapCharge.reward.injEq, Option.some.injEq] at h
    exact absurd (h.1.trans h.2.1.symm) (by decide)
  simp only [hobservers] at htotal
  simp only [hmatching] at heligible
  refine ⟨apart, fun h => ?_, htotal, heligible, ?_, ?_⟩
  · have hone := (hnodup.mp h).1 "m"
    simp only [hobservers] at hone
    exact absurd hone (by decide)
  · exact ((hcaps _ (by decide +kernel)).2 (hsingle _)).1
  · exact ((hcaps _ (by decide +kernel)).2 (hsingle _)).1

/-- One purchase charged twice to one counter: to the total of a mission by two observers, to the
counter of a cap that names it twice, and to that of the card, which a cap names too. -/
theorem receipt_lists_twice :
    let observers : List (RuleSpec Binary64) :=
      [{ RuleSpec.ofKind "one" .missionObserver with missionId := some "m" },
        { RuleSpec.ofKind "two" .missionObserver with missionId := some "m" }]
    let capped : List (RuleSpec Binary64) :=
      [((RuleSpec.flat "dining" (Sample.thousandths 100) ["dining"]).capped .reward "k"
        (Sample.whole 300)).cappedAgain "k" (Sample.whole 300)]
    let shared : List (RuleSpec Binary64) :=
      [(RuleSpec.flat "dining" (Sample.thousandths 100) ["dining"]).capped .spending
        "card_spend:card" (Sample.whole 300)]
    let quote (rules : List (RuleSpec Binary64)) :=
      (ofScheme (Sample.single rules)).quote (.held "card" "cash" (rules.map (·.id)))
        (Sample.whole 100) "dining" .cash .empty .empty
    let written (rules : List (RuleSpec Binary64)) :=
      ((Profile.empty : Profile Binary64).receipt (quote rules)).updated.map Prod.fst
    let after (rules : List (RuleSpec Binary64)) := (Profile.empty.book (quote rules)).ledger.get
    ¬ (written observers).Nodup ∧ after observers (.missionTotal "m") = Sample.whole 200 ∧
      ¬ (written capped).Nodup ∧ after capped (.configured "k") = Sample.whole 20 ∧
      ¬ (written shared).Nodup ∧ after shared (.cardSpend "card") = Sample.whole 200 := by
  decide +kernel

end RuleBook

end CardRewards
