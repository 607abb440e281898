import CardRewards.Scheme.Category

/-!
# Ancestors of a category

In a hierarchy that is not transitive the ancestors of a category are its direct parents. In a
transitive one they are found by a breadth-first walk: a queue of categories whose parents are
still to be looked at, and the categories seen so far. The walk may meet a category again, by way
of a shared ancestor or of a cycle, and passes over it.

The walk ends because each of its steps either sees a category for the first time, of which there
are finitely many among the parents of the hierarchy, or shortens the queue.

In the requirements (§4.1) these are the `ancestors` of the category resolver.
-/

namespace CardRewards

/-- The categories of a list that have not been seen, each of them once, in order. -/
def unseen (seen : List String) : List String → List String
  | [] => []
  | c :: rest => if c ∈ seen then unseen seen rest else c :: unseen (c :: seen) rest

theorem mem_unseen {c : String} : ∀ {seen cs : List String},
    c ∈ unseen seen cs ↔ c ∈ cs ∧ c ∉ seen
  | _, [] => by simp [unseen]
  | seen, d :: rest => by
    unfold unseen
    split
    · next h =>
      rw [mem_unseen]
      constructor
      · exact fun ⟨hr, hs⟩ => ⟨List.mem_cons_of_mem _ hr, hs⟩
      · rintro ⟨hr, hs⟩
        rcases List.mem_cons.mp hr with rfl | hr
        · exact absurd h hs
        · exact ⟨hr, hs⟩
    · next h =>
      rw [List.mem_cons, mem_unseen]
      constructor
      · rintro (rfl | ⟨hr, hs⟩)
        · exact ⟨List.mem_cons_self .., h⟩
        · exact ⟨List.mem_cons_of_mem _ hr, fun hc => hs (List.mem_cons_of_mem _ hc)⟩
      · rintro ⟨hr, hs⟩
        rcases Decidable.em (c = d) with rfl | hne
        · exact .inl rfl
        · refine .inr ⟨(List.mem_cons.mp hr).resolve_left hne, ?_⟩
          simp [hne, hs]

namespace Hierarchy

/-- Everything that is a parent of something. -/
def allParents (h : Hierarchy) : List String := h.parents.values.flatten

theorem mem_allParents {h : Hierarchy} {c p : String} (hp : p ∈ h.parentsOf c) :
    p ∈ h.allParents := by
  have key : ∀ entries : List (String × List String),
      p ∈ (Dict.lookup c entries).getD [] → p ∈ (entries.map Prod.snd).flatten := by
    intro entries
    induction entries with
    | nil => simp [Dict.lookup]
    | cons entry rest ih =>
      obtain ⟨k, v⟩ := entry
      simp only [Dict.lookup]
      split
      · intro hv
        simp only [Option.getD_some] at hv
        simp [hv]
      · intro hr
        have := ih hr
        simp only [List.map_cons, List.flatten_cons, List.mem_append]
        exact .inr this
  exact key _ hp

/-- How many parents have not been seen. -/
def unseenCount (h : Hierarchy) (seen : List String) : Nat :=
  (h.allParents.filter fun c => !seen.contains c).length

theorem unseenCount_lt {h : Hierarchy} {seen new : List String} {c : String}
    (hc : c ∈ h.allParents) (hs : c ∉ seen) (hn : c ∈ new) :
    h.unseenCount (seen ++ new) < h.unseenCount seen := by
  have hstrict : ∀ cs : List String, c ∈ cs →
      (cs.filter fun d => !(seen ++ new).contains d).length <
        (cs.filter fun d => !seen.contains d).length := by
    intro cs hmem
    induction cs with
    | nil => simp at hmem
    | cons d rest ih =>
      have hle : (rest.filter fun d => !(seen ++ new).contains d).length ≤
          (rest.filter fun d => !seen.contains d).length := by
        rw [← List.countP_eq_length_filter, ← List.countP_eq_length_filter]
        refine List.countP_mono_left fun e _ he => ?_
        simp only [Bool.not_eq_eq_eq_not, Bool.not_true, List.contains_eq_mem, List.mem_append,
          decide_eq_false_iff_not, not_or] at *
        exact he.1
      rcases Decidable.em (d = c) with rfl | hne
      · simp only [List.filter_cons, List.contains_eq_mem, List.mem_append, hs, hn, or_true,
          decide_true, Bool.not_true, Bool.false_eq_true, ↓reduceIte, decide_false, Bool.not_false,
          List.length_cons]
        exact Nat.lt_succ_of_le (by simpa using hle)
      · have hr := ih ((List.mem_cons.mp hmem).resolve_left fun e => hne e.symm)
        simp only [List.filter_cons]
        split <;> split
        · simpa using hr
        · next h1 h2 => simp at h1 h2; exact absurd h2 h1.1
        · simp only [List.length_cons]; omega
        · exact hr
  exact hstrict _ hc

/-- The breadth-first walk. What it finds is listed in the order in which it is first seen. -/
def walk (h : Hierarchy) (seen : List String) : (queue : List String) → List String
  | [] => []
  | c :: queue =>
    let new := unseen seen (h.parentsOf c)
    new ++ walk h (seen ++ new) (queue ++ new)
termination_by queue => (h.unseenCount seen, queue.length)
decreasing_by
  rcases hnew : unseen seen (h.parentsOf c) with _ | ⟨d, rest⟩
  · simp only [List.append_nil]
    exact Prod.Lex.right _ (by simp)
  · have hd : d ∈ unseen seen (h.parentsOf c) := hnew ▸ List.mem_cons_self ..
    exact Prod.Lex.left _ _
      (unseenCount_lt (mem_allParents (mem_unseen.mp hd).1) (mem_unseen.mp hd).2
        (List.mem_cons_self ..))

/-- The categories that a category also counts as. -/
def ancestors (h : Hierarchy) (category : String) : List String :=
  if h.transitive then h.walk [category] [category] else h.parentsOf category

/-- Whether a category, or one that it also counts as, is in a list. -/
def isMatch (h : Hierarchy) (matched : List String) (category : String) : Bool :=
  matched.contains category || (h.ancestors category).any matched.contains

end Hierarchy

end CardRewards
