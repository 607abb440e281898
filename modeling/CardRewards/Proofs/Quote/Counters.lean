import CardRewards.Proofs.CounterKey
import CardRewards.Proofs.Posting
import CardRewards.Proofs.Quote.Charges
import Mathlib.Data.List.Dedup

/-!
# The counters of a card

Booking a quote of a card writes to the counters that the caps of the card name
(`RuleBook.capKeysOf`) and to those whose keys are generated (`RuleBook.generatedKeysOf`): of the
card, of the tier program and of the missions that its rules observe. Each sort of charge keeps to
its counters (`key_of_mem_capCharges`, `key_mem_tierKeys`, `key_mem_missionKeysOf`). So a counter
that caps name is charged for caps only, if its key is not generated (`deltas_of_cap`), and one with
a generated key by what it counts for only, if no cap names it (`deltas_generated`).
-/

namespace CardRewards

namespace RuleBook

section

variable {α : Type}

/-- The counters that the caps of a card name. -/
def capKeysOf (b : RuleBook α) (card : Card) : List CounterKey :=
  (b.rulesOf card).flatMap fun r => r.capUses.map fun use => .configured use.key

/-- The counters that caps name. -/
def capKeys (b : RuleBook α) : List CounterKey :=
  b.rules.values.flatMap fun r => r.capUses.map fun use => .configured use.key

/-- The counters of the tier program. -/
def tierKeys (b : RuleBook α) : List CounterKey :=
  b.scheme.tierProgram.toList.flatMap fun program => [.tierReward program.id, .tierSpend program.id]

/-- The missions that the rules of a card observe, each of them once. -/
def observedBy (b : RuleBook α) (card : Card) : List String :=
  ((b.rulesOf card).filterMap (·.observed?)).dedup

/-- The counters of the missions that the rules of a card observe. -/
def missionKeysOf (b : RuleBook α) (card : Card) : List CounterKey :=
  (b.observedBy card).flatMap fun mission => [.missionTotal mission, .missionEligible mission]

/-- The counters with generated keys that booking a quote of a card writes to. -/
def generatedKeysOf (b : RuleBook α) (card : Card) : List CounterKey :=
  .cardSpend card.id :: b.tierKeys ++ b.missionKeysOf card

/-- No cap of a card names a counter that booking a quote of the card writes to anyway. -/
def CapsApart (b : RuleBook α) (card : Card) : Prop :=
  ∀ key ∈ b.capKeysOf card, key ∉ b.generatedKeysOf card

instance (b : RuleBook α) (card : Card) : Decidable (b.CapsApart card) :=
  inferInstanceAs (Decidable (∀ key ∈ b.capKeysOf card, key ∉ b.generatedKeysOf card))

end

variable {α : Type} {b : RuleBook α} {card : Card}

theorem key_mem_capKeysOf {r : Rule α} {cap : Cap α} (hr : r ∈ b.rulesOf card)
    (hcap : r.cap? = some cap) : cap.key ∈ b.capKeysOf card := by
  refine List.mem_flatMap.mpr ⟨r, hr, ?_⟩
  simp [Rule.capUses, hcap, CounterKey.configured]

theorem secondary_mem_capKeysOf {r : Rule α} {cap : Cap α} {second : Limit α}
    (hr : r ∈ b.rulesOf card) (hcap : r.cap? = some cap) (hmode : cap.mode = .reward)
    (hsecond : cap.secondary = some second) : second.key ∈ b.capKeysOf card := by
  refine List.mem_flatMap.mpr ⟨r, hr, ?_⟩
  simp [Rule.capUses, hcap, hmode, hsecond, CounterKey.configured]

theorem capKeysOf_subset (b : RuleBook α) (card : Card) : b.capKeysOf card ⊆ b.capKeys := by
  intro key hkey
  obtain ⟨r, hr, hkey⟩ := List.mem_flatMap.mp hkey
  exact List.mem_flatMap.mpr ⟨r, mem_values_of_mem_rulesOf hr, hkey⟩

theorem tierKeys_eq {program : TierProgram α} (h : b.scheme.tierProgram = some program) :
    b.tierKeys = [.tierReward program.id, .tierSpend program.id] := by
  rw [tierKeys, h]
  rfl

theorem tierKeys_subset (b : RuleBook α) (card : Card) : b.tierKeys ⊆ b.generatedKeysOf card :=
  fun _ h => List.mem_append_left _ (List.mem_cons_of_mem _ h)

theorem missionKeysOf_subset (b : RuleBook α) (card : Card) :
    b.missionKeysOf card ⊆ b.generatedKeysOf card :=
  fun _ h => List.mem_append_right _ h

theorem CapsApart.not_mem_capKeysOf {key : CounterKey} (h : b.CapsApart card)
    (hkey : key ∈ b.generatedKeysOf card) : key ∉ b.capKeysOf card :=
  fun hcap => h key hcap hkey

variable [Amount α] {amount : α} {rawCategory : String} {mode : DisplayMode} {ledger : Ledger α}
  {settings : Settings} {charge : Charge α}

/-- What a quote charges to caps goes to counters that the caps of the card name. -/
theorem key_of_mem_capCharges
    (h : charge ∈ (b.quote card amount rawCategory mode ledger settings).capCharges) :
    charge.key ∈ b.capKeysOf card := by
  unfold Quote.capCharges at h
  split at h
  next => simp at h
  next key hcharge =>
    obtain ⟨r, hr, rate, cap, hcounts, rfl⟩ := of_capCharge_spending hcharge
    obtain ⟨composition, heffect⟩ := hcounts.effect
    rw [List.mem_singleton.mp h]
    exact key_mem_capKeysOf hr (by simp [Rule.cap?, heffect])
  next key second reward hcharge =>
    obtain ⟨r, hr, rate, cap, hgrants, rfl, rfl⟩ := of_capCharge_reward hcharge
    obtain ⟨composition, heffect⟩ := hgrants.effect
    have hcap : r.cap? = some cap := by simp [Rule.cap?, heffect]
    split at h
    next =>
      rcases List.mem_cons.mp h with rfl | h
      · exact key_mem_capKeysOf hr hcap
      · obtain ⟨key, hkey, rfl⟩ := List.mem_map.mp h
        obtain ⟨second, hsecond, rfl⟩ := Option.map_eq_some_iff.mp (Option.mem_toList.mp hkey)
        exact secondary_mem_capKeysOf hr hcap hgrants.mode hsecond
    next => simp at h

/-- What a quote charges to the tier program goes to the counters of the program. -/
theorem key_mem_tierKeys
    (h : charge ∈ (b.quote card amount rawCategory mode ledger settings).tierCharges) :
    charge.key ∈ b.tierKeys := by
  unfold Quote.tierCharges at h
  split at h
  next => simp at h
  next t ht =>
    obtain ⟨program, hprogram, hid⟩ := of_tierCharge_quote ht
    rw [hid] at h
    rw [tierKeys_eq hprogram]
    rcases List.mem_append.mp h with h | h
    · split at h
      next => simp [List.mem_singleton.mp h]
      next => simp at h
    · split at h
      next => simp [List.mem_singleton.mp h]
      next => simp at h

/-- What a quote charges to missions goes to the counters of missions that the card observes. -/
theorem key_mem_missionKeysOf
    (h : charge ∈ (b.quote card amount rawCategory mode ledger settings).missionCharges) :
    charge.key ∈ b.missionKeysOf card := by
  obtain ⟨tag, htag, h⟩ := List.mem_flatMap.mp h
  obtain ⟨r, hr, hobserved⟩ := of_mem_missionTags htag
  have hmission : tag.missionId ∈ b.observedBy card :=
    List.mem_dedup.mpr (List.mem_filterMap.mpr ⟨r, hr, hobserved⟩)
  refine List.mem_flatMap.mpr ⟨tag.missionId, hmission, ?_⟩
  rcases List.mem_cons.mp h with rfl | h
  · simp
  · split at h
    next => simp [List.mem_singleton.mp h]
    next => simp at h

/-- **The counters of a card** are all that booking a quote of it writes to. -/
theorem key_of_mem_charges
    (h : charge ∈ (b.quote card amount rawCategory mode ledger settings).charges) :
    charge.key ∈ b.capKeysOf card ∨ charge.key ∈ b.generatedKeysOf card := by
  rcases List.mem_append.mp h with h | hmission
  · rcases List.mem_append.mp h with h | htier
    · rcases List.mem_cons.mp h with rfl | hcap
      · exact .inr (List.mem_cons_self ..)
      · exact .inl (key_of_mem_capCharges hcap)
    · exact .inr (b.tierKeys_subset card (key_mem_tierKeys htier))
  · exact .inr (b.missionKeysOf_subset card (key_mem_missionKeysOf hmission))

end RuleBook

/-! ## What is charged to one counter -/

namespace Quote

open Charge (deltas deltas_cons deltas_ite deltas_append deltas_flatMap)

variable {α : Type} [Amount α]

theorem deltas_charges (q : Quote α) (key : CounterKey) :
    deltas q.charges key =
      (if CounterKey.cardSpend q.cardId = key then [q.amount] else []) ++
        deltas q.capCharges key ++ deltas q.tierCharges key ++ deltas q.missionCharges key := by
  rw [charges, deltas_append, deltas_append, deltas_cons]

theorem deltas_tierCharges {q : Quote α} {t : TierCharge α} (h : q.tierCharge = some t)
    (key : CounterKey) :
    deltas q.tierCharges key =
      (if 0 < t.reward ∧ CounterKey.tierReward t.programId = key then [t.reward] else []) ++
        if t.qualifies = true ∧ CounterKey.tierSpend t.programId = key then [q.amount] else [] := by
  rw [tierCharges, h, deltas_append, deltas_ite, deltas_ite]

/-- The tier program charges no counter of another sort. -/
theorem deltas_tierCharges_of_ne (q : Quote α) {s : CounterSort} (hreward : .tierReward ≠ s)
    (hspend : .tierSpend ≠ s) (id : String) : deltas q.tierCharges (s.key id) = [] := by
  cases hcharge : q.tierCharge with
  | none => rw [tierCharges, hcharge, Charge.deltas_nil]
  | some t =>
    rw [deltas_tierCharges hcharge,
      if_neg fun h => CounterSort.key_ne hreward t.programId id h.2,
      if_neg fun h => CounterSort.key_ne hspend t.programId id h.2, List.append_nil]

section

omit [Amount α]

/-- The amount is charged to a counter of missions once for each tag that goes with it. -/
theorem deltas_missionCharges (q : Quote α) (key : CounterKey) :
    deltas q.missionCharges key = q.missionTags.flatMap fun tag =>
      (if CounterKey.missionTotal tag.missionId = key then [q.amount] else []) ++
        if tag.eligible = true ∧ CounterKey.missionEligible tag.missionId = key then [q.amount]
        else [] := by
  rw [missionCharges, deltas_flatMap]
  congr 1
  funext tag
  rw [deltas_cons, deltas_ite]

/-- Missions charge no counter of another sort. -/
theorem deltas_missionCharges_of_ne (q : Quote α) {s : CounterSort} (htotal : .missionTotal ≠ s)
    (heligible : .missionEligible ≠ s) (id : String) : deltas q.missionCharges (s.key id) = [] := by
  rw [deltas_missionCharges, List.flatMap_eq_nil_iff]
  intro tag _
  have hfirst : CounterKey.missionTotal tag.missionId ≠ s.key id :=
    CounterSort.key_ne htotal _ _
  have hsecond : CounterKey.missionEligible tag.missionId ≠ s.key id :=
    CounterSort.key_ne heligible _ _
  rw [if_neg hfirst, if_neg fun h => hsecond h.2, List.append_nil]

end

/-- A counter with a generated key is charged by what it counts for, if no cap is charged to it. -/
theorem deltas_charges_of_sort (q : Quote α) (s : CounterSort) (id : String) :
    deltas q.capCharges (s.key id) = [] → deltas q.charges (s.key id) =
      match s with
      | .cardSpend => if CounterKey.cardSpend q.cardId = .cardSpend id then [q.amount] else []
      | .tierReward | .tierSpend => deltas q.tierCharges (s.key id)
      | .missionTotal | .missionEligible => deltas q.missionCharges (s.key id) := by
  intro hcap
  have hcard (hs : .cardSpend ≠ s) : CounterKey.cardSpend q.cardId ≠ s.key id :=
    CounterSort.key_ne hs q.cardId id
  rw [q.deltas_charges, hcap, List.append_nil]
  -- of the remaining sorts of charges only one has keys of this sort
  cases s with
  | cardSpend =>
    rw [q.deltas_tierCharges_of_ne (by decide) (by decide),
      q.deltas_missionCharges_of_ne (by decide) (by decide), List.append_nil, List.append_nil]
    rfl
  | tierReward | tierSpend =>
    rw [if_neg (hcard (by decide)), q.deltas_missionCharges_of_ne (by decide) (by decide),
      List.append_nil, List.nil_append]
  | missionTotal | missionEligible =>
    rw [if_neg (hcard (by decide)), q.deltas_tierCharges_of_ne (by decide) (by decide)]
    rfl

end Quote

namespace RuleBook

open Charge (deltas deltas_eq_nil)

section

variable {α : Type} [Amount α] {b : RuleBook α} {card : Card} {amount : α} {rawCategory : String}
  {mode : DisplayMode} {ledger : Ledger α} {settings : Settings} {key : CounterKey}

/-- A counter with a generated key is charged by what it counts for, if no cap of the card names
it. -/
theorem deltas_generated {s : CounterSort} {id : String} (apart : s.key id ∉ b.capKeysOf card) :
    let q := b.quote card amount rawCategory mode ledger settings
    deltas q.charges (s.key id) =
      match s with
      | .cardSpend => if CounterKey.cardSpend card.id = .cardSpend id then [amount] else []
      | .tierReward | .tierSpend => deltas q.tierCharges (s.key id)
      | .missionTotal | .missionEligible => deltas q.missionCharges (s.key id) := by
  intro q
  have hcap : deltas q.capCharges (s.key id) = [] :=
    deltas_eq_nil fun charge hcharge heq => apart (heq ▸ key_of_mem_capCharges hcharge)
  have hcharges := q.deltas_charges_of_sort s id hcap
  cases s <;> exact hcharges

/-- A counter without a generated key is charged for caps only. -/
theorem deltas_of_cap (apart : key ∉ b.generatedKeysOf card) :
    deltas (b.quote card amount rawCategory mode ledger settings).charges key =
      deltas (b.quote card amount rawCategory mode ledger settings).capCharges key := by
  obtain ⟨hfixed, hmissions⟩ := not_or.mp (mt List.mem_append.mpr apart)
  obtain ⟨hcard, htiers⟩ := not_or.mp (mt List.mem_cons.mpr hfixed)
  have htier : deltas (b.quote card amount rawCategory mode ledger settings).tierCharges key = [] :=
    deltas_eq_nil fun charge hcharge heq => htiers (heq ▸ key_mem_tierKeys hcharge)
  have hmission : deltas (b.quote card amount rawCategory mode ledger settings).missionCharges key
      = [] :=
    deltas_eq_nil fun charge hcharge heq => hmissions (heq ▸ key_mem_missionKeysOf hcharge)
  rw [Quote.deltas_charges, htier, hmission, List.append_nil, List.append_nil]
  show (if CounterKey.cardSpend card.id = key then _ else _) ++ _ = _
  rw [if_neg (Ne.symm hcard), List.nil_append]

end

/-! ## What a counter grows by -/

variable {b : RuleBook ℚ} {card : Card} {amount : ℚ} {rawCategory : String} {mode : DisplayMode}
  {ledger : Ledger ℚ} {settings : Settings} {key : CounterKey}

theorem total_charges_of_cap (apart : key ∉ b.generatedKeysOf card) :
    Charge.total (b.quote card amount rawCategory mode ledger settings).charges key =
      Charge.total (b.quote card amount rawCategory mode ledger settings).capCharges key :=
  congrArg List.sum (deltas_of_cap apart)

/-- The counter of the rewards of a tier program grows by the reward charged to the program, if no
cap of the card names the counter. -/
theorem total_charges_tierReward {t : TierCharge ℚ}
    (h : (b.quote card amount rawCategory mode ledger settings).tierCharge = some t)
    (apart : .tierReward t.programId ∉ b.capKeysOf card) :
    Charge.total (b.quote card amount rawCategory mode ledger settings).charges
        (.tierReward t.programId) = max t.reward 0 := by
  have hspend : ¬ (t.qualifies = true ∧
      CounterKey.tierSpend t.programId = .tierReward t.programId) := fun h =>
    CounterSort.key_ne (s := .tierSpend) (t := .tierReward) (by decide) _ _ h.2
  refine (congrArg List.sum (deltas_generated (s := .tierReward) apart)).trans ?_
  refine (congrArg List.sum (Quote.deltas_tierCharges h (.tierReward t.programId))).trans ?_
  rw [if_neg hspend, List.append_nil]
  by_cases hpos : 0 < t.reward
  · rw [if_pos (And.intro hpos rfl), List.sum_singleton, max_eq_left hpos.le]
  · rw [if_neg fun h => hpos h.1, max_eq_right (not_lt.mp hpos)]
    rfl

theorem total_charges_of_no_tierCharge {program : String}
    (h : (b.quote card amount rawCategory mode ledger settings).tierCharge = none)
    (apart : .tierReward program ∉ b.capKeysOf card) :
    Charge.total (b.quote card amount rawCategory mode ledger settings).charges
        (.tierReward program) = 0 := by
  refine (congrArg List.sum (deltas_generated (s := .tierReward) apart)).trans ?_
  show (Charge.deltas (Quote.tierCharges _) _).sum = 0
  rw [Quote.tierCharges, h]
  rfl

end RuleBook

end CardRewards
