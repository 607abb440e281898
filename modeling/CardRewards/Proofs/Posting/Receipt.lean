import CardRewards.Proofs.Posting.Effect
import CardRewards.Proofs.Quote.Multiplicity
import Mathlib.Data.List.Duplicate

/-!
# What a receipt tells

A receipt lists every charge with the value that its counter stood at when it was written. So it
lists the values that a counter went through (`Receipt.history`). The last of them is what the
ledger holds in the end (`Profile.getLast?_history`); the first is what the receipt gives when it is
asked for the counter (`Receipt.valueOf?_eq_head?`).

For a counter that is written once the two are the same. `Quote.WritesAgain` lists the ways in which
one booking writes a counter again: a cap names a counter that is written anyway, or names one as
both of its own, or two tags go with one mission. Then the receipt gives a value from in between,
less than what the ledger holds unless the rest was lost in rounding:
`Profile.receipt_tells_unless_writtenAgain`.
-/

namespace CardRewards

open Charge (deltas)

/-! ## The values listed for a counter -/

namespace Receipt

variable {α : Type}

/-- The values that a receipt lists for a counter, in the order in which they were written. -/
def history (r : Receipt α) (key : CounterKey) : List α :=
  (r.updated.filter (·.1 = key)).map Prod.snd

/-- Asked for a counter, a receipt gives the first value that it lists. -/
theorem valueOf?_eq_head? (r : Receipt α) (key : CounterKey) :
    r.valueOf? key = (r.history key).head? := by
  rw [valueOf?, history, List.head?_map, List.head?_filter]

end Receipt

theorem Charge.mem_keys_iff {α : Type} {charges : List (Charge α)} {key : CounterKey} :
    key ∈ charges.map (·.key) ↔ 0 < (deltas charges key).length := by
  rw [← count_keys, List.count_pos_iff]

/-- The values written to a counter are the sums that it goes through as its amounts are added to it
one after another. -/
theorem Ledger.values_postings {α : Type} [Amount α] (charges : List (Charge α))
    (key : CounterKey) : ∀ l : Ledger α,
      ((l.postings charges).filter (·.1 = key)).map Prod.snd =
        ((deltas charges key).scanl (· + ·) (l.get key)).tail := by
  induction charges with
  | nil => intro l; rfl
  | cons charge rest ih =>
    intro l
    rw [postings, Charge.deltas_cons]
    by_cases h : charge.key = key
    · -- the value listed first is the one from which the rest goes on
      subst h
      rw [List.filter_cons_of_pos (by simp), List.map_cons, ih, get_add, if_pos rfl, if_pos rfl,
        List.singleton_append, List.scanl_cons, List.tail_cons]
      exact List.cons_head?_tail List.head?_scanl
    · rw [List.filter_cons_of_neg (by simpa using h), ih, get_add, if_neg (Ne.symm h), if_neg h]
      rfl

/-! ## Counters that are written again -/

namespace Quote

variable {α : Type} [Amount α] {q : Quote α} {key : CounterKey}

theorem writes_iff_length_pos : q.Writes key ↔ 0 < (deltas q.charges key).length :=
  writes_iff_mem_charges.trans Charge.mem_keys_iff

/-- The quote without what it charges to caps. -/
def uncapped (q : Quote α) : Quote α := { q with capCharge := .none }

/-- Booking a quote writes a counter more than once. -/
inductive WritesAgain (q : Quote α) : CounterKey → Prop
  /-- A cap is charged that names a counter which is written anyway. -/
  | named {key : CounterKey} (charged : key ∈ q.capCharges.map (·.key))
      (anyway : q.uncapped.Writes key) : WritesAgain q key
  /-- A reward is charged to a cap that names one counter as both of its own. -/
  | doubled {cap : CounterKey} {reward : α} (charged : q.capCharge = .reward cap (some cap) reward)
      (pos : 0 < reward) : WritesAgain q cap
  /-- Two tags go with one mission. -/
  | missionTotal {mission : String}
      (tagged : List.Duplicate mission (q.missionTags.map (·.missionId))) :
      WritesAgain q (.missionTotal mission)
  /-- Two tags count for one mission. -/
  | missionEligible {mission : String}
      (tagged : List.Duplicate mission ((q.missionTags.filter (·.eligible)).map (·.missionId))) :
      WritesAgain q (.missionEligible mission)

/-- A counter is charged for caps and for whatever else a quote is booked for. -/
theorem length_deltas_charges (q : Quote α) (key : CounterKey) :
    (deltas q.charges key).length =
      (deltas q.capCharges key).length + (deltas q.uncapped.charges key).length := by
  have huncapped : deltas q.uncapped.charges key =
      (if CounterKey.cardSpend q.cardId = key then [q.amount] else []) ++ [] ++
        deltas q.tierCharges key ++ deltas q.missionCharges key := q.uncapped.deltas_charges key
  rw [deltas_charges, huncapped]
  simp only [List.length_append, List.length_nil]
  omega

/-- Caps charge a counter twice only if it is both of the counters that a reward goes to. -/
theorem two_le_length_deltas_capCharges_iff :
    2 ≤ (deltas q.capCharges key).length ↔
      ∃ reward, q.capCharge = .reward key (some key) reward ∧ 0 < reward := by
  unfold capCharges
  cases q.capCharge with
  | none => simp
  | spending cap => by_cases h : cap = key <;> simp [Charge.deltas_cons, h]
  | reward cap second reward =>
    by_cases hpos : 0 < reward
    · cases second with
      | none => by_cases h : cap = key <;> simp [Charge.deltas_cons, h, hpos]
      | some other =>
        by_cases h : cap = key <;> by_cases h' : other = key <;>
          simp [Charge.deltas_cons, h, h', hpos]
    · simp [hpos]

omit [Amount α] in
theorem duplicate_missionId_iff {tags : List MissionTag} {mission : String} :
    List.Duplicate mission (tags.map (·.missionId)) ↔ 2 ≤ tags.countP (·.missionId = mission) := by
  rw [List.duplicate_iff_two_le_count, List.count_eq_countP, List.countP_map]
  rfl

theorem length_deltas_uncapped_total (q : Quote α) (mission : String) :
    (deltas q.uncapped.charges (.missionTotal mission)).length =
      q.missionTags.countP (·.missionId = mission) := by
  have hmission : deltas q.uncapped.charges (.missionTotal mission) =
      deltas q.missionCharges (.missionTotal mission) :=
    q.uncapped.deltas_charges_of_sort .missionTotal mission rfl
  rw [hmission, deltas_missionCharges_total, List.length_replicate]

theorem length_deltas_uncapped_eligible (q : Quote α) (mission : String) :
    (deltas q.uncapped.charges (.missionEligible mission)).length =
      (q.missionTags.filter (·.eligible)).countP (·.missionId = mission) := by
  have hmission : deltas q.uncapped.charges (.missionEligible mission) =
      deltas q.missionCharges (.missionEligible mission) :=
    q.uncapped.deltas_charges_of_sort .missionEligible mission rfl
  rw [hmission, deltas_missionCharges_eligible, List.length_replicate, List.countP_filter]

theorem length_deltas_uncapped_tier_le (q : Quote α) {s : CounterSort}
    (h : s = .tierReward ∨ s = .tierSpend) (id : String) :
    (deltas q.uncapped.charges (s.key id)).length ≤ 1 := by
  rcases h with rfl | rfl
  · rw [q.uncapped.deltas_charges_of_sort .tierReward id rfl]
    exact q.uncapped.length_deltas_tierCharges_le _
  · rw [q.uncapped.deltas_charges_of_sort .tierSpend id rfl]
    exact q.uncapped.length_deltas_tierCharges_le _

/-- Without caps only the counters of missions are written again. -/
theorem writesAgain_of_uncapped (h : 2 ≤ (deltas q.uncapped.charges key).length) :
    q.WritesAgain key := by
  have hwritten : q.uncapped.Writes key := writes_iff_length_pos.mpr (by omega)
  cases hwritten with
  | card =>
    have honce : deltas q.uncapped.charges (.cardSpend q.cardId) = [q.amount] :=
      (q.uncapped.deltas_charges_of_sort .cardSpend q.cardId rfl).trans (if_pos rfl)
    rw [show q.uncapped.cardId = q.cardId from rfl, honce] at h
    exact absurd h (Nat.not_succ_le_self 1)
  | spendingCap charged => exact nomatch charged
  | rewardCap charged => exact nomatch charged
  | secondCap charged => exact nomatch charged
  | @tierReward t =>
    have honce := q.length_deltas_uncapped_tier_le (.inl rfl) t.programId
    exact absurd (h.trans honce) (Nat.not_succ_le_self 1)
  | @tierSpend t =>
    have honce := q.length_deltas_uncapped_tier_le (.inr rfl) t.programId
    exact absurd (h.trans honce) (Nat.not_succ_le_self 1)
  | @missionTotal tag =>
    rw [length_deltas_uncapped_total] at h
    exact .missionTotal (duplicate_missionId_iff.mpr h)
  | @missionEligible tag =>
    rw [length_deltas_uncapped_eligible] at h
    exact .missionEligible (duplicate_missionId_iff.mpr h)

/-- The counters that are written again are those that two charges go to. -/
theorem writesAgain_iff : q.WritesAgain key ↔ 2 ≤ (deltas q.charges key).length := by
  rw [length_deltas_charges]
  constructor
  · intro h
    cases h with
    | named charged anyway =>
      have hcap := Charge.mem_keys_iff.mp charged
      have hother := writes_iff_length_pos.mp anyway
      omega
    | doubled charged pos =>
      have hcap := two_le_length_deltas_capCharges_iff.mpr ⟨_, charged, pos⟩
      omega
    | missionTotal tagged =>
      rw [duplicate_missionId_iff, ← length_deltas_uncapped_total] at tagged
      omega
    | missionEligible tagged =>
      rw [duplicate_missionId_iff, ← length_deltas_uncapped_eligible] at tagged
      omega
  · intro h
    by_cases hcap : 2 ≤ (deltas q.capCharges key).length
    · obtain ⟨reward, charged, pos⟩ := two_le_length_deltas_capCharges_iff.mp hcap
      exact .doubled charged pos
    by_cases hother : 2 ≤ (deltas q.uncapped.charges key).length
    · exact writesAgain_of_uncapped hother
    -- then there is one charge of either kind
    have hnamed : key ∈ q.capCharges.map (·.key) := Charge.mem_keys_iff.mpr (by omega)
    exact .named hnamed (writes_iff_length_pos.mpr (by omega))

instance : Decidable (q.WritesAgain key) := decidable_of_iff _ writesAgain_iff.symm

end Quote

/-! ## What a receipt gives -/

namespace Profile

section

variable {α : Type} [Amount α] {q : Quote α} {key : CounterKey}

theorem history_receipt (p : Profile α) (q : Quote α) (key : CounterKey) :
    (p.receipt q).history key =
      ((deltas q.charges key).scanl (· + ·) (p.ledger.get key)).tail :=
  Ledger.values_postings q.charges key p.ledger

theorem get_book (p : Profile α) (q : Quote α) (key : CounterKey) :
    (p.book q).ledger.get key = (deltas q.charges key).foldl (· + ·) (p.ledger.get key) :=
  Ledger.get_post_eq_foldl q.charges key p.ledger

/-- A receipt gives what a counter stood at after the first charge to it. -/
theorem valueOf?_receipt (p : Profile α) (q : Quote α) (key : CounterKey) :
    (p.receipt q).valueOf? key = (deltas q.charges key).head?.map (p.ledger.get key + ·) := by
  rw [Receipt.valueOf?_eq_head?, history_receipt]
  cases deltas q.charges key with
  | nil => simp
  | cons first rest =>
    rw [List.scanl_cons, List.tail_cons, List.head?_scanl]
    rfl

/-- The last value that a receipt lists for a counter is what the ledger then holds. -/
theorem getLast?_history (p : Profile α) (h : q.Writes key) :
    ((p.receipt q).history key).getLast? = some ((p.book q).ledger.get key) := by
  have hsome := Quote.writes_iff_length_pos.mp h
  obtain ⟨first, rest, hdeltas⟩ := List.exists_cons_of_length_pos hsome
  rw [history_receipt, get_book, hdeltas, List.scanl_cons, List.tail_cons, List.getLast?_scanl,
    List.foldl_cons]

theorem mem_updated_iff (p : Profile α) :
    key ∈ (p.receipt q).updated.map Prod.fst ↔ q.Writes key := by
  rw [Quote.writes_iff_mem_charges, ← Ledger.keys_postings q.charges p.ledger]
  rfl

theorem valueOf?_eq_none_iff (p : Profile α) :
    (p.receipt q).valueOf? key = none ↔ ¬ q.Writes key := by
  rw [valueOf?_receipt, Option.map_eq_none_iff, List.head?_eq_none_iff,
    Quote.writes_iff_length_pos, List.length_pos_iff, not_not]

/-- A counter that is written once is given with what the ledger then holds. -/
theorem valueOf?_of_not_writesAgain (p : Profile α) (h : q.Writes key)
    (honce : ¬ q.WritesAgain key) :
    (p.receipt q).valueOf? key = some ((p.book q).ledger.get key) := by
  have hsome := Quote.writes_iff_length_pos.mp h
  rw [Quote.writesAgain_iff] at honce
  have hone : (deltas q.charges key).length = 1 := by omega
  obtain ⟨delta, hdeltas⟩ := List.length_eq_one_iff.mp hone
  rw [valueOf?_receipt, get_book, hdeltas]
  rfl

/-- Where nothing is lost in a sum, a counter that is written again is given with less than the
ledger then holds. -/
theorem valueOf?_of_writesAgain (p : Profile α) (hsums : Amount.AddsUp α) (hamount : 0 < q.amount)
    (h : q.WritesAgain key) :
    ∃ earlier, (p.receipt q).valueOf? key = some earlier ∧
      earlier < (p.book q).ledger.get key := by
  have hpos : ∀ delta ∈ deltas q.charges key, 0 < delta := by
    intro delta hdelta
    obtain ⟨charge, hcharge, rfl⟩ := List.mem_map.mp hdelta
    exact Quote.delta_pos hamount charge (List.mem_of_mem_filter hcharge)
  have htwo := Quote.writesAgain_iff.mp h
  rw [valueOf?_receipt, get_book]
  match deltas q.charges key, hpos, htwo with
  | first :: second :: rest, hpos, _ =>
    refine ⟨p.ledger.get key + first, rfl, ?_⟩
    exact hsums.lt_foldl (List.forall_mem_cons.mp hpos).2 (List.cons_ne_nil _ _) _

theorem writes_of_valueOf? {value : α} (p : Profile α)
    (h : (p.receipt q).valueOf? key = some value) : q.Writes key := by
  by_contra hnot
  rw [p.valueOf?_eq_none_iff.mpr hnot] at h
  exact nomatch h

/-- A receipt gives what the ledger then holds of the counters that it lists with one value in the
end as in the beginning. -/
theorem valueOf?_eq_some_iff (p : Profile α) :
    (p.receipt q).valueOf? key = some ((p.book q).ledger.get key) ↔
      q.Writes key ∧ (q.WritesAgain key →
        ((p.receipt q).history key).head? = ((p.receipt q).history key).getLast?) := by
  constructor
  · intro h
    have hwrites := p.writes_of_valueOf? h
    refine ⟨hwrites, fun _ => ?_⟩
    rw [← Receipt.valueOf?_eq_head?, p.getLast?_history hwrites, h]
  · rintro ⟨hwrites, hsame⟩
    by_cases hagain : q.WritesAgain key
    · rw [Receipt.valueOf?_eq_head?, hsame hagain, p.getLast?_history hwrites]
    · exact p.valueOf?_of_not_writesAgain hwrites hagain

theorem valueOf?_eq_some_iff_of_addsUp (p : Profile α) (hsums : Amount.AddsUp α)
    (hamount : 0 < q.amount) :
    (p.receipt q).valueOf? key = some ((p.book q).ledger.get key) ↔
      q.Writes key ∧ ¬ q.WritesAgain key := by
  constructor
  · intro h
    refine ⟨p.writes_of_valueOf? h, fun hagain => ?_⟩
    obtain ⟨earlier, hearlier, hlt⟩ := p.valueOf?_of_writesAgain hsums hamount hagain
    obtain rfl := Option.some.inj (hearlier.symm.trans h)
    exact hsums.lt_irrefl _ hlt
  · rintro ⟨hwrites, honce⟩
    exact p.valueOf?_of_not_writesAgain hwrites honce

/-- **What a receipt tells of a counter.** It gives no value exactly for the counters that the
booking did not write. Of the others it lists the sums that they went through, the last of which is
what the ledger now holds, and gives the first. So it gives what the ledger now holds of a counter
exactly if the booking wrote it and, where it wrote it again, the first sum is the last. Where
nothing is lost in a sum, that is exactly if the booking wrote it and did not write it again. -/
theorem receipt_tells_unless_writtenAgain (p : Profile α) (q : Quote α) (key : CounterKey) :
    let r := p.receipt q
    let now := (p.book q).ledger.get key
    (key ∈ r.updated.map Prod.fst ↔ q.Writes key) ∧
    (r.valueOf? key = none ↔ ¬ q.Writes key) ∧
    r.history key = ((deltas q.charges key).scanl (· + ·) (p.ledger.get key)).tail ∧
    r.valueOf? key = (r.history key).head? ∧
    (q.Writes key → (r.history key).getLast? = some now) ∧
    (r.valueOf? key = some now ↔
      q.Writes key ∧ (q.WritesAgain key → (r.history key).head? = (r.history key).getLast?)) ∧
    (Amount.AddsUp α → 0 < q.amount →
      (r.valueOf? key = some now ↔ q.Writes key ∧ ¬ q.WritesAgain key)) := by
  intro r now
  refine ⟨?_, ?_, ?_, ?_, ?_, ?_, ?_⟩
  · exact p.mem_updated_iff
  · exact p.valueOf?_eq_none_iff
  · exact p.history_receipt q key
  · exact r.valueOf?_eq_head? key
  · exact p.getLast?_history
  · exact p.valueOf?_eq_some_iff
  · exact p.valueOf?_eq_some_iff_of_addsUp

end

/-- A dining purchase that two observers of a mission count, one of them as eligible, and that is
charged to two caps: the receipt gives what the second cap and the eligible part of the mission now
stand at, but not what the total of the mission does, and nothing for another mission. -/
theorem receipt_tells_unless_writtenAgain_observedTwice :
    let q := (RuleBook.ofScheme RuleBook.observedTwice).quote
      (.held "card" "cash" ["all", "travel", "dining"]) 1000 "dining" .cash .empty .empty
    let r := (Profile.empty : Profile ℚ).receipt q
    let now := ((Profile.empty : Profile ℚ).book q).ledger.get
    r.valueOf? (.configured "shared") = some (now (.configured "shared")) ∧
      r.valueOf? (.missionEligible "m") = some (now (.missionEligible "m")) ∧
      r.valueOf? (.missionTotal "m") ≠ some (now (.missionTotal "m")) ∧
      r.valueOf? (.missionTotal "other") = none := by
  intro q r now
  have hamount : 0 < q.amount := by decide +kernel
  have htells (key : CounterKey) := receipt_tells_unless_writtenAgain Profile.empty q key
  have honce (key : CounterKey) (hlisted : key ∈ r.updated.map Prod.fst)
      (hnot : ¬ q.WritesAgain key) : r.valueOf? key = some (now key) := by
    obtain ⟨hwritten, -, -, -, -, hgives, -⟩ := htells key
    exact hgives.mpr ⟨hwritten.mp hlisted, fun hagain => absurd hagain hnot⟩
  refine ⟨?_, ?_, ?_, ?_⟩
  · exact honce _ (by decide +kernel) (by decide +kernel)
  · exact honce _ (by decide +kernel) (by decide +kernel)
  · obtain ⟨-, -, -, -, -, -, hiff⟩ := htells (.missionTotal "m")
    intro h
    exact ((hiff Amount.addsUp_rat hamount).mp h).2 (by decide +kernel)
  · obtain ⟨hwritten, hnone, -⟩ := htells (.missionTotal "other")
    exact hnone.mpr fun h => absurd (hwritten.mpr h) (by decide +kernel)

/-- Two observers of one mission count a purchase of 100. The total of the mission now stands at
200, and the receipt gives the 100 that it stood at in between. -/
theorem receipt_tells_earlier_value :
    let rules : List (RuleSpec Binary64) :=
      [{ RuleSpec.ofKind "one" .missionObserver with missionId := some "m" },
        { RuleSpec.ofKind "two" .missionObserver with missionId := some "m" }]
    let q := (RuleBook.ofScheme (Sample.single rules)).quote (.held "card" "cash" ["one", "two"])
      (Sample.whole 100) "dining" .cash .empty .empty
    let p : Profile Binary64 := .empty
    (p.receipt q).valueOf? (.missionTotal "m") = some (Sample.whole 100) ∧
      (p.book q).ledger.get (.missionTotal "m") = Sample.whole 200 ∧
      ¬ ∀ key ∈ (p.receipt q).updated.map Prod.fst,
        (p.receipt q).valueOf? key = some ((p.book q).ledger.get key) := by
  decide +kernel

end Profile

end CardRewards
