import CardRewards.Posting
import CardRewards.Proofs.Exact

/-!
# What charges do to a ledger

Charges are written one after another, and several of them may go to one counter. For a counter
only the charges to it matter (`Charge.deltas`): it moves by their amounts one after another
(`get_post_eq_foldl`), and the others leave its value and its presence alone (`get_post_of_not_mem`,
`contains_post`). With exact amounts it grows by the sum, in whatever order they come (`get_post`).
A quote charges its amount or a reward of more than nothing (`Quote.delta_of_mem_charges`), so
counters only grow.
-/

namespace CardRewards

/-! ## Charges to one counter -/

namespace Charge

variable {α : Type}

/-- The amounts that charges write to a counter, in order. -/
def deltas (charges : List (Charge α)) (key : CounterKey) : List α :=
  (charges.filter (·.key = key)).map (·.delta)

@[simp] theorem deltas_nil (key : CounterKey) : deltas ([] : List (Charge α)) key = [] := rfl

theorem deltas_cons (charge : Charge α) (rest : List (Charge α)) (key : CounterKey) :
    deltas (charge :: rest) key =
      (if charge.key = key then [charge.delta] else []) ++ deltas rest key := by
  unfold deltas
  by_cases h : charge.key = key <;> simp [h]

theorem deltas_ite (c : Prop) [Decidable c] (first key : CounterKey) (delta : α) :
    deltas (if c then [⟨first, delta⟩] else []) key =
      if c ∧ first = key then [delta] else [] := by
  by_cases hc : c
  · rw [if_pos hc, deltas_cons, deltas_nil, List.append_nil]
    simp only [hc, true_and]
  · rw [if_neg hc, if_neg (fun h => hc h.1), deltas_nil]

@[simp] theorem deltas_append (a b : List (Charge α)) (key : CounterKey) :
    deltas (a ++ b) key = deltas a key ++ deltas b key := by
  simp [deltas]

theorem deltas_flatMap {β : Type} (f : β → List (Charge α)) (l : List β) (key : CounterKey) :
    deltas (l.flatMap f) key = l.flatMap fun x => deltas (f x) key := by
  induction l with
  | nil => rfl
  | cons x rest ih => rw [List.flatMap_cons, List.flatMap_cons, deltas_append, ih]

/-- Charges to other counters write nothing to a counter. -/
theorem deltas_eq_nil {charges : List (Charge α)} {key : CounterKey}
    (h : ∀ charge ∈ charges, charge.key ≠ key) : deltas charges key = [] := by
  have hnone : charges.filter (·.key = key) = [] := by simpa using h
  rw [deltas, hnone]
  rfl

/-- A counter is listed once for each amount written to it. -/
theorem count_keys (charges : List (Charge α)) (key : CounterKey) :
    (charges.map (·.key)).count key = (deltas charges key).length := by
  induction charges with
  | nil => rfl
  | cons charge rest ih =>
    rw [List.map_cons, List.count_cons, ih, deltas_cons, List.length_append, add_comm]
    by_cases h : charge.key = key <;> simp [h]

end Charge

/-! ## Sums -/

/-- What charges add to a counter altogether. -/
def Charge.total (charges : List (Charge ℚ)) (key : CounterKey) : ℚ :=
  ((charges.filter (·.key = key)).map (·.delta)).sum

namespace Charge

theorem total_eq_sum (charges : List (Charge ℚ)) (key : CounterKey) :
    total charges key = (deltas charges key).sum := rfl

@[simp] theorem total_nil (key : CounterKey) : total [] key = 0 := rfl

theorem total_cons (charge : Charge ℚ) (rest : List (Charge ℚ)) (key : CounterKey) :
    total (charge :: rest) key =
      (if charge.key = key then charge.delta else 0) + total rest key := by
  unfold total
  by_cases h : charge.key = key <;> simp [h]

/-- Charges to other counters add nothing to a counter. -/
theorem total_eq_zero {charges : List (Charge ℚ)} {key : CounterKey}
    (h : ∀ charge ∈ charges, charge.key ≠ key) : total charges key = 0 := by
  rw [total_eq_sum, deltas_eq_nil h]
  rfl

theorem total_nonneg {charges : List (Charge ℚ)} (h : ∀ charge ∈ charges, 0 ≤ charge.delta)
    (key : CounterKey) : 0 ≤ total charges key := by
  induction charges with
  | nil => exact le_refl 0
  | cons charge rest ih =>
    obtain ⟨hhead, hrest⟩ := List.forall_mem_cons.mp h
    rw [total_cons]
    have := ih hrest
    by_cases hkey : charge.key = key
    · rw [if_pos hkey]
      linarith
    · rw [if_neg hkey]
      linarith

/-- A charge is part of what is charged to its counter. -/
theorem delta_le_total {charges : List (Charge ℚ)} {key : CounterKey} {delta : ℚ}
    (h : ∀ charge ∈ charges, 0 ≤ charge.delta) (hmem : ⟨key, delta⟩ ∈ charges) :
    delta ≤ total charges key := by
  induction charges with
  | nil => simp at hmem
  | cons head rest ih =>
    obtain ⟨hhead, hrest⟩ := List.forall_mem_cons.mp h
    rw [total_cons]
    rcases List.mem_cons.mp hmem with rfl | hmem
    · rw [if_pos rfl]
      have := total_nonneg hrest key
      linarith
    · have := ih hrest hmem
      split <;> linarith

end Charge

/-- What a quote charges is its amount, or a reward of more than nothing. -/
theorem Quote.delta_of_mem_charges {α : Type} [Amount α] {q : Quote α} {charge : Charge α}
    (h : charge ∈ q.charges) : charge.delta = q.amount ∨ 0 < charge.delta := by
  simp only [charges, List.mem_append, List.mem_cons] at h
  rcases h with ((rfl | hcap) | htier) | hmission
  · exact .inl rfl
  · unfold capCharges at hcap
    split at hcap
    next => exact nomatch hcap
    next => exact .inl (by rw [List.mem_singleton.mp hcap])
    next =>
      split at hcap
      next hpos =>
        rcases List.mem_cons.mp hcap with rfl | hsecond
        · exact .inr hpos
        · obtain ⟨_, _, rfl⟩ := List.mem_map.mp hsecond
          exact .inr hpos
      next => exact nomatch hcap
  · unfold tierCharges at htier
    split at htier
    next => exact nomatch htier
    next =>
      rcases List.mem_append.mp htier with hreward | hspend
      · split at hreward
        next hpos =>
          rw [List.mem_singleton.mp hreward]
          exact .inr hpos
        next => exact nomatch hreward
      · split at hspend
        next => exact .inl (by rw [List.mem_singleton.mp hspend])
        next => exact nomatch hspend
  · obtain ⟨tag, -, hmission⟩ := List.mem_flatMap.mp hmission
    rcases List.mem_cons.mp hmission with rfl | heligible
    · exact .inl rfl
    · split at heligible
      next => exact .inl (by rw [List.mem_singleton.mp heligible])
      next => exact nomatch heligible

/-- Nothing that a quote charges is negative, if its amount is not. -/
theorem Quote.delta_nonneg {q : Quote ℚ} (hamount : 0 ≤ q.amount) :
    ∀ charge ∈ q.charges, 0 ≤ charge.delta := by
  intro charge hcharge
  rcases delta_of_mem_charges hcharge with heq | hpos
  · rw [heq]
    exact hamount
  · exact le_of_lt hpos

/-- All that a quote charges is more than nothing, if its amount is. -/
theorem Quote.delta_pos {α : Type} [Amount α] {q : Quote α} (hamount : 0 < q.amount) :
    ∀ charge ∈ q.charges, 0 < charge.delta := by
  intro charge hcharge
  rcases delta_of_mem_charges hcharge with heq | hpos
  · rw [heq]
    exact hamount
  · exact hpos

/-! ## Ledgers -/

namespace Ledger

section

variable {α : Type} [Amount α]

theorem post_cons (l : Ledger α) (charge : Charge α) (rest : List (Charge α)) :
    l.post (charge :: rest) = (l.add charge.key charge.delta).post rest := rfl

/-- A counter moves by the amounts written to it, one after another. -/
theorem get_post_eq_foldl (charges : List (Charge α)) (key : CounterKey) :
    ∀ l : Ledger α,
      (l.post charges).get key = (Charge.deltas charges key).foldl (· + ·) (l.get key) := by
  induction charges with
  | nil => intro l; rfl
  | cons charge rest ih =>
    intro l
    rw [post_cons, ih, get_add, Charge.deltas_cons, List.foldl_append]
    by_cases h : charge.key = key
    · rw [if_pos h, if_pos h.symm, h]
      rfl
    · rw [if_neg h, if_neg (fun e => h e.symm)]
      rfl

/-- A counter that no charge goes to keeps its value. -/
theorem get_post_of_not_mem {charges : List (Charge α)} {key : CounterKey}
    (h : key ∉ charges.map (·.key)) (l : Ledger α) : (l.post charges).get key = l.get key := by
  have hnone : Charge.deltas charges key = [] :=
    Charge.deltas_eq_nil fun charge hcharge heq => h (List.mem_map.mpr ⟨charge, hcharge, heq⟩)
  rw [get_post_eq_foldl, hnone]
  rfl

/-- The counters present after charges are those charged and those present before. -/
theorem contains_post (charges : List (Charge α)) (key : CounterKey) :
    ∀ l : Ledger α, (l.post charges).contains key =
      (decide (key ∈ charges.map (·.key)) || l.contains key) := by
  induction charges with
  | nil => intro l; simp [post]
  | cons charge rest ih =>
    intro l
    rw [post_cons, ih, contains_add]
    by_cases h : key = charge.key
    · simp [h]
    · have hbeq : (key == charge.key) = false := by simpa using h
      simp [h, hbeq]

end

/-- With exact amounts a counter grows by what is charged to it. -/
theorem get_post (charges : List (Charge ℚ)) (key : CounterKey) :
    ∀ l : Ledger ℚ, (l.post charges).get key = l.get key + Charge.total charges key := by
  induction charges with
  | nil => intro l; simp [post]
  | cons charge rest ih =>
    intro l
    rw [post_cons, ih, get_add, Charge.total_cons]
    by_cases h : key = charge.key
    · rw [if_pos h, if_pos h.symm, h, add_assoc]
    · rw [if_neg h, if_neg (fun e => h e.symm), zero_add]

end Ledger

end CardRewards
