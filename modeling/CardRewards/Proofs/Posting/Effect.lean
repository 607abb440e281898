import CardRewards.Proofs.Posting
import Mathlib.Algebra.BigOperators.Group.List.Basic

/-!
# What booking quotes adds up to

Booking a quote writes to some counters (`Quote.Writes`), to each of them as much as the quote
carries for it (`Quote.growth`). It does so whatever the profile is, and whether the quote was
evaluated for the profile or made up. So with exact amounts many quotes that are booked one after
another add their growth to every counter and their amounts to the totals, and leave the settings
alone (`Profile.Adds`). That says all there is to the profile they leave (`Profile.Adds.unique`),
and sums do not depend on an order. Hence neither does the profile: `Profile.bookAll_adds`.
-/

namespace CardRewards

namespace Quote

/-! ## Counters that are written -/

section

variable {α : Type} [Amount α]

/-- Booking a quote writes a counter. -/
inductive Writes (q : Quote α) : CounterKey → Prop
  | card : Writes q (.cardSpend q.cardId)
  | spendingCap {cap : CounterKey} (charged : q.capCharge = .spending cap) : Writes q cap
  | rewardCap {cap : CounterKey} {second : Option CounterKey} {reward : α}
      (charged : q.capCharge = .reward cap second reward) (pos : 0 < reward) : Writes q cap
  | secondCap {cap second : CounterKey} {reward : α}
      (charged : q.capCharge = .reward cap (some second) reward) (pos : 0 < reward) :
      Writes q second
  | tierReward {t : TierCharge α} (charged : q.tierCharge = some t) (pos : 0 < t.reward) :
      Writes q (.tierReward t.programId)
  | tierSpend {t : TierCharge α} (charged : q.tierCharge = some t)
      (qualifies : t.qualifies = true) : Writes q (.tierSpend t.programId)
  | missionTotal {tag : MissionTag} (tagged : tag ∈ q.missionTags) :
      Writes q (.missionTotal tag.missionId)
  | missionEligible {tag : MissionTag} (tagged : tag ∈ q.missionTags)
      (eligible : tag.eligible = true) : Writes q (.missionEligible tag.missionId)

variable {q : Quote α} {key : CounterKey} {charge : Charge α}

theorem writes_of_mem_capCharges (h : charge ∈ q.capCharges) : q.Writes charge.key := by
  unfold capCharges at h
  split at h
  next => exact nomatch h
  next cap hcap =>
    rw [List.mem_singleton.mp h]
    exact .spendingCap hcap
  next cap second reward hcap =>
    split at h
    next hpos =>
      rcases List.mem_cons.mp h with rfl | h
      · exact .rewardCap hcap hpos
      · obtain ⟨other, hother, rfl⟩ := List.mem_map.mp h
        rw [Option.mem_toList.mp hother] at hcap
        exact .secondCap hcap hpos
    next => exact nomatch h

theorem writes_of_mem_tierCharges (h : charge ∈ q.tierCharges) : q.Writes charge.key := by
  unfold tierCharges at h
  split at h
  next => exact nomatch h
  next t ht =>
    rcases List.mem_append.mp h with h | h
    · split at h
      next hpos =>
        rw [List.mem_singleton.mp h]
        exact .tierReward ht hpos
      next => exact nomatch h
    · split at h
      next hqualifies =>
        rw [List.mem_singleton.mp h]
        exact .tierSpend ht hqualifies
      next => exact nomatch h

theorem writes_of_mem_missionCharges (h : charge ∈ q.missionCharges) : q.Writes charge.key := by
  obtain ⟨tag, htag, h⟩ := List.mem_flatMap.mp h
  rcases List.mem_cons.mp h with rfl | h
  · exact .missionTotal htag
  · split at h
    next heligible =>
      rw [List.mem_singleton.mp h]
      exact .missionEligible htag heligible
    next => exact nomatch h

/-- The counters that booking a quote writes are those that its charges go to. -/
theorem writes_iff_mem_charges : q.Writes key ↔ key ∈ q.charges.map (·.key) := by
  constructor
  · intro h
    simp only [charges, List.map_append, List.map_cons, List.mem_append, List.mem_cons]
    cases h with
    | card => simp
    | spendingCap hcap => simp [capCharges, hcap]
    | rewardCap hcap hpos => simp [capCharges, hcap, hpos]
    | secondCap hcap hpos => simp [capCharges, hcap, hpos]
    | tierReward ht hpos => simp [tierCharges, ht, hpos]
    | tierSpend ht hqualifies => simp [tierCharges, ht, hqualifies]
    | missionTotal htag =>
      exact .inr (List.mem_map.mpr ⟨_, List.mem_flatMap.mpr ⟨_, htag, List.mem_cons_self ..⟩, rfl⟩)
    | @missionEligible tag htag heligible =>
      refine .inr (List.mem_map.mpr ⟨⟨.missionEligible tag.missionId, q.amount⟩, ?_, rfl⟩)
      refine List.mem_flatMap.mpr ⟨tag, htag, ?_⟩
      rw [if_pos heligible]
      exact List.mem_cons_of_mem _ (List.mem_singleton_self _)
  · intro h
    obtain ⟨charge, hcharge, rfl⟩ := List.mem_map.mp h
    simp only [charges, List.mem_append, List.mem_cons] at hcharge
    rcases hcharge with ((rfl | hcap) | htier) | hmission
    · exact .card
    · exact writes_of_mem_capCharges hcap
    · exact writes_of_mem_tierCharges htier
    · exact writes_of_mem_missionCharges hmission

end

/-! ## How much is written -/

/-- What a quote carries for a counter of a cap: its amount, or its reward if there is one. -/
def capGrowth (q : Quote ℚ) (key : CounterKey) : ℚ :=
  match q.capCharge with
  | .none => 0
  | .spending cap => if cap = key then q.amount else 0
  | .reward cap second reward =>
    if 0 < reward then
      (if cap = key then reward else 0) + if second = some key then reward else 0
    else 0

/-- What a quote carries for a counter of a tier program: the reward granted, if there is one, and
its amount if it qualifies. -/
def tierGrowth (q : Quote ℚ) (key : CounterKey) : ℚ :=
  match q.tierCharge with
  | none => 0
  | some t =>
    (if 0 < t.reward ∧ .tierReward t.programId = key then t.reward else 0) +
      if t.qualifies = true ∧ .tierSpend t.programId = key then q.amount else 0

/-- What a tag of a quote carries for a counter of a mission. -/
def tagGrowth (q : Quote ℚ) (key : CounterKey) (tag : MissionTag) : ℚ :=
  (if .missionTotal tag.missionId = key then q.amount else 0) +
    if tag.eligible = true ∧ .missionEligible tag.missionId = key then q.amount else 0

/-- What a quote carries for a counter. -/
def growth (q : Quote ℚ) (key : CounterKey) : ℚ :=
  (if .cardSpend q.cardId = key then q.amount else 0) + q.capGrowth key + q.tierGrowth key +
    (q.missionTags.map (q.tagGrowth key)).sum

end Quote

namespace Charge

theorem total_append (first rest : List (Charge ℚ)) (key : CounterKey) :
    total (first ++ rest) key = total first key + total rest key := by
  simp only [total_eq_sum, deltas_append, List.sum_append]

theorem total_flatMap {β : Type} (f : β → List (Charge ℚ)) (l : List β) (key : CounterKey) :
    total (l.flatMap f) key = (l.map fun x => total (f x) key).sum := by
  induction l with
  | nil => rfl
  | cons x rest ih => rw [List.flatMap_cons, total_append, ih, List.map_cons, List.sum_cons]

theorem total_ite (c : Prop) [Decidable c] (first key : CounterKey) (delta : ℚ) :
    total (if c then [⟨first, delta⟩] else []) key = if c ∧ first = key then delta else 0 := by
  rw [total_eq_sum, deltas_ite]
  split <;> simp

end Charge

namespace Quote

variable (q : Quote ℚ) (key : CounterKey)

theorem total_capCharges : Charge.total q.capCharges key = q.capGrowth key := by
  unfold capCharges capGrowth
  cases q.capCharge with
  | none => rfl
  | spending cap =>
    show Charge.total [⟨cap, q.amount⟩] key = _
    rw [Charge.total_cons, Charge.total_nil, add_zero]
  | reward cap second reward =>
    dsimp only
    by_cases hpos : 0 < reward
    · rw [if_pos hpos, if_pos hpos, Charge.total_cons]
      refine congrArg _ ?_
      cases second with
      | none => rfl
      | some other =>
        show Charge.total [⟨other, reward⟩] key = _
        rw [Charge.total_cons, Charge.total_nil, add_zero]
        simp only [Option.some.injEq]
    · rw [if_neg hpos, if_neg hpos, Charge.total_nil]

theorem total_tierCharges : Charge.total q.tierCharges key = q.tierGrowth key := by
  unfold tierCharges tierGrowth
  cases q.tierCharge with
  | none => rfl
  | some t => rw [Charge.total_append, Charge.total_ite, Charge.total_ite]

theorem total_missionCharges :
    Charge.total q.missionCharges key = (q.missionTags.map (q.tagGrowth key)).sum := by
  unfold missionCharges
  rw [Charge.total_flatMap]
  refine congrArg List.sum (List.map_congr_left fun tag _ => ?_)
  rw [Charge.total_cons, Charge.total_ite, tagGrowth]

/-- The charges of a quote come to what it carries for a counter. -/
theorem total_charges : Charge.total q.charges key = q.growth key := by
  rw [charges, Charge.total_append, Charge.total_append, Charge.total_cons, total_capCharges,
    total_tierCharges, total_missionCharges]
  rfl

end Quote

/-! ## Booking many quotes -/

/-- A ledger is known by its counters and what they stand at. -/
theorem Ledger.ext_get {α : Type} [Amount α] {l l' : Ledger α}
    (hcontains : ∀ key, l.contains key = l'.contains key) (hget : ∀ key, l.get key = l'.get key) :
    l = l' := by
  obtain ⟨counters⟩ := l
  obtain ⟨counters'⟩ := l'
  refine congrArg Ledger.mk (Dict.ext_get? fun text => ?_)
  have hsame : (counters.get? text).isSome = (counters'.get? text).isSome := hcontains ⟨text⟩
  have hvalue : (counters.get? text).getD 0 = (counters'.get? text).getD 0 := hget ⟨text⟩
  cases hold : counters.get? text with
  | none =>
    rw [hold] at hsame
    exact (Option.isSome_eq_false_iff.mp hsame.symm |> Option.isNone_iff_eq_none.mp).symm
  | some value =>
    rw [hold] at hsame hvalue
    obtain ⟨value', hnew⟩ := Option.isSome_iff_exists.mp hsame.symm
    rw [hnew] at hvalue
    rw [hnew, show value = value' from hvalue]

namespace Profile

/-- The profile after some quotes have been booked, one after another. -/
def bookAll {α : Type} [Amount α] (p : Profile α) (quotes : List (Quote α)) : Profile α :=
  quotes.foldl book p

/-- A profile is what booking quotes adds up to. -/
structure Adds (p : Profile ℚ) (quotes : List (Quote ℚ)) (p' : Profile ℚ) : Prop where
  /-- Every counter has grown by what the quotes carry for it. -/
  counters : ∀ key, p'.ledger.get key = p.ledger.get key + (quotes.map (·.growth key)).sum
  /-- The counters are those from before and those that a quote writes. -/
  present : ∀ key, p'.ledger.contains key = true ↔
    p.ledger.contains key = true ∨ ∃ q ∈ quotes, q.Writes key
  settings : p'.settings = p.settings
  spend : p'.totals.spend = p.totals.spend + (quotes.map (·.amount)).sum
  value : p'.totals.value = p.totals.value + (quotes.map (·.displayValue)).sum
  /-- The count wraps around at 2⁶⁴. -/
  count : p'.totals.count = p.totals.count + .ofNat quotes.length

variable {p p' p'' : Profile ℚ} {q : Quote ℚ} {quotes quotes' rest : List (Quote ℚ)}

theorem adds_nil (p : Profile ℚ) : p.Adds [] p where
  counters key := by rw [List.map_nil, List.sum_nil, add_zero]
  present key := by simp
  settings := rfl
  spend := by rw [List.map_nil, List.sum_nil, add_zero]
  value := by rw [List.map_nil, List.sum_nil, add_zero]
  count := (UInt64.add_zero _).symm

/-- A quote adds what it carries, and whatever is booked behind it adds to that. -/
theorem Adds.cons (h : (p.book q).Adds rest p') : p.Adds (q :: rest) p' where
  counters key := by
    rw [h.counters, List.map_cons, List.sum_cons, ← add_assoc, ← Quote.total_charges]
    exact congrArg (· + _) (Ledger.get_post q.charges key p.ledger)
  present key := by
    have hbook : (p.book q).ledger.contains key = true ↔
        q.Writes key ∨ p.ledger.contains key = true := by
      show (p.ledger.post q.charges).contains key = true ↔ _
      rw [Ledger.contains_post, Bool.or_eq_true, decide_eq_true_iff, Quote.writes_iff_mem_charges]
    rw [h.present, hbook]
    simp only [List.mem_cons, exists_eq_or_imp]
    rw [or_comm (a := q.Writes key), or_assoc]
  settings := h.settings
  spend := by rw [h.spend, List.map_cons, List.sum_cons, ← add_assoc]; rfl
  value := by rw [h.value, List.map_cons, List.sum_cons, ← add_assoc]; rfl
  count := by
    rw [h.count, List.length_cons, Nat.add_comm, UInt64.ofNat_add, ← UInt64.add_assoc]
    rfl

/-- Booking quotes one after another adds them up. -/
theorem adds_bookAll (quotes : List (Quote ℚ)) :
    ∀ p : Profile ℚ, p.Adds quotes (p.bookAll quotes) := by
  induction quotes with
  | nil => exact adds_nil
  | cons q rest ih => exact fun p => (ih (p.book q)).cons

/-- What quotes add up to leaves nothing of a profile open. -/
theorem Adds.unique (h : p.Adds quotes p') (h' : p.Adds quotes p'') : p' = p'' := by
  have hledger : p'.ledger = p''.ledger := by
    refine Ledger.ext_get (fun key => ?_) fun key => ?_
    · exact Bool.eq_iff_iff.mpr ((h.present key).trans (h'.present key).symm)
    · rw [h.counters, h'.counters]
  have htotals : p'.totals = p''.totals := calc
    p'.totals = ⟨p'.totals.spend, p'.totals.value, p'.totals.count⟩ := rfl
    _ = ⟨p''.totals.spend, p''.totals.value, p''.totals.count⟩ := by
      rw [h.spend, h.value, h.count, h'.spend, h'.value, h'.count]
  calc
    p' = ⟨p'.settings, p'.ledger, p'.totals⟩ := rfl
    _ = ⟨p''.settings, p''.ledger, p''.totals⟩ := by
      rw [h.settings, h'.settings, hledger, htotals]

/-- Quotes in another order add up to the same. -/
theorem Adds.perm (h : p.Adds quotes p') (hperm : quotes.Perm quotes') : p.Adds quotes' p' where
  counters key := by rw [h.counters, (hperm.map (·.growth key)).sum_eq]
  present key := by
    rw [h.present]
    exact or_congr Iff.rfl (exists_congr fun q => and_congr_left' hperm.mem_iff)
  settings := h.settings
  spend := by rw [h.spend, (hperm.map (·.amount)).sum_eq]
  value := by rw [h.value, (hperm.map (·.displayValue)).sum_eq]
  count := by rw [h.count, hperm.length_eq]

/-- **Booking quotes adds them up, in whatever order.** With exact amounts the profile after some
quotes have been booked one after another is the one in which every counter has grown by what the
quotes carry for it, those counters are present that were or that a quote writes, the settings are
as they were, and the totals have grown by the amounts, the worths and the number of the quotes.

The number of purchases is a count of 64 bits, to which the quotes are added modulo 2⁶⁴, as in a
release build; one that checks for overflow stops there. -/
theorem bookAll_adds (p : Profile ℚ) (quotes : List (Quote ℚ)) :
    (∀ p', p' = p.bookAll quotes ↔ p.Adds quotes p') ∧
      ∀ quotes', quotes.Perm quotes' → p.bookAll quotes' = p.bookAll quotes := by
  refine ⟨fun p' => ⟨?_, fun h => h.unique (adds_bookAll quotes p)⟩, fun quotes' hperm => ?_⟩
  · intro h
    rw [h]
    exact adds_bookAll quotes p
  · exact (adds_bookAll quotes' p).unique ((adds_bookAll quotes p).perm hperm)

end Profile

end CardRewards
