import CardRewards.Category.Ancestry
import Mathlib.Data.List.Nodup
import Mathlib.Data.Nat.Find
import Mathlib.Order.Bounds.Basic

/-!
# What a category counts as

The parents of categories make a graph, in which a category may be its own parent, name a parent
twice, or come back to itself over others. A way up in it is a number of steps to a parent
(`Climbs`), and the length of a shortest way is a `Distance`.

The walk that finds ancestors goes up from all sides at once: its queue holds categories of two
distances only, the nearer ones first, and everything that is no further away than these has been
seen (`Frontier`). Looking at the parents of the first category keeps that up, so what the walk
finds is in the order of the distances and misses nothing (`Frontier.completes_walk`). Hence a
category matches a list exactly if a way leads from it up to a member of the list, or, in a
hierarchy that is not transitive, a way of at most one step: `isMatch_iff_climbs`.
-/

namespace CardRewards

/-- What has not been seen is picked out once. -/
theorem nodup_unseen : ∀ (seen cs : List String), (unseen seen cs).Nodup
  | _, [] => List.nodup_nil
  | seen, c :: rest => by
    unfold unseen
    split
    next => exact nodup_unseen seen rest
    next =>
      refine List.nodup_cons.mpr ⟨fun h => ?_, nodup_unseen (c :: seen) rest⟩
      exact (mem_unseen.mp h).2 (List.mem_cons_self ..)

namespace Hierarchy

variable {h : Hierarchy} {c a p : String} {m n : Nat}

/-! ## Ways up -/

/-- So many steps to a parent lead from a category up to another. -/
inductive Climbs (h : Hierarchy) (c : String) : Nat → String → Prop
  | start : Climbs h c 0 c
  | up {n : Nat} {a p : String} (way : Climbs h c n a) (parent : p ∈ h.parentsOf a) :
    Climbs h c (n + 1) p

/-- The shortest way from a category up to another has so many steps. -/
def Distance (h : Hierarchy) (c a : String) (n : Nat) : Prop := IsLeast {m | h.Climbs c m a} n

/-- Of two categories that are further up the first one is no further away than the second. -/
def NoFarther (h : Hierarchy) (c a b : String) : Prop :=
  ∃ m n, h.Distance c a m ∧ h.Distance c b n ∧ m ≤ n

theorem climbs_zero_iff : h.Climbs c 0 a ↔ a = c :=
  ⟨fun way => by cases way; rfl, fun heq => heq ▸ .start⟩

theorem climbs_one_iff : h.Climbs c 1 p ↔ p ∈ h.parentsOf c := by
  constructor
  · intro way
    cases way with
    | up way parent => exact climbs_zero_iff.mp way ▸ parent
  · exact .up .start

/-- Where there is a way there is a shortest one. -/
theorem Climbs.exists_distance (way : h.Climbs c m a) : ∃ n ≤ m, h.Distance c a n := by
  classical
  have hsome : ∃ n, h.Climbs c n a := ⟨m, way⟩
  exact ⟨Nat.find hsome, Nat.find_min' hsome way, Nat.find_spec hsome,
    fun _ hway => Nat.find_min' hsome hway⟩

theorem distance_self : h.Distance c c 0 := ⟨.start, fun _ _ => Nat.zero_le _⟩

/-- A shortest way comes to its last step by a shortest way. -/
theorem Distance.exists_child (hp : h.Distance c p (n + 1)) :
    ∃ a, h.Distance c a n ∧ p ∈ h.parentsOf a := by
  obtain ⟨hway, hleast⟩ := hp
  cases hway with
  | @up _ a _ way parent =>
    obtain ⟨m, hle, hdist⟩ := way.exists_distance
    have hlong : n + 1 ≤ m + 1 := hleast (.up hdist.1 parent)
    obtain rfl : m = n := by omega
    exact ⟨a, hdist, parent⟩

/-! ## The walk -/

/-- What a walk finds is new, each category once. -/
theorem nodup_walk (h : Hierarchy) (seen queue : List String) :
    (h.walk seen queue).Nodup ∧ ∀ a ∈ h.walk seen queue, a ∉ seen := by
  fun_induction h.walk seen queue with
  | case1 => exact ⟨List.nodup_nil, nofun⟩
  | case2 seen c queue new ih =>
    obtain ⟨hnodup, hfresh⟩ := ih
    refine ⟨List.nodup_append.mpr ⟨nodup_unseen .., hnodup, ?_⟩, fun a ha hseen => ?_⟩
    · rintro a hnew b hfound rfl
      exact hfresh a hfound (List.mem_append_right seen hnew)
    · rcases List.mem_append.mp ha with hnew | hfound
      · exact (mem_unseen.mp hnew).2 hseen
      · exact hfresh a hfound (List.mem_append_left _ hseen)

/-- A walk up from a category has seen everything that is no more than so many steps away. The
parents of those in `near`, which are so many steps away, and then of those in `far`, which are one
step further away, are still to be looked at. -/
structure Frontier (h : Hierarchy) (c : String) (n : Nat) (seen near far : List String) : Prop where
  distance_near : ∀ a ∈ near, h.Distance c a n
  distance_far : ∀ a ∈ far, h.Distance c a (n + 1)
  within : ∀ a m, h.Distance c a m → m ≤ n → a ∈ seen
  queued : ∀ a ∈ seen, a ∈ near ++ far ∨ ∀ p ∈ h.parentsOf a, p ∈ seen

/-- What is found beyond a frontier: it is further away than that, in the order of the distances,
and with what has been seen it is everything further up. -/
structure Completes (h : Hierarchy) (c : String) (n : Nat) (seen found : List String) : Prop where
  beyond : ∀ a ∈ found, ∃ m, n < m ∧ h.Distance c a m
  ordered : found.Pairwise (h.NoFarther c)
  complete : ∀ m a, h.Climbs c m a → a ∈ seen ++ found

namespace Frontier

variable {seen near far queue : List String}

theorem start (h : Hierarchy) (c : String) : h.Frontier c 0 [c] [c] [] where
  distance_near a ha := List.mem_singleton.mp ha ▸ distance_self
  distance_far := nofun
  within a m hdist hle := by
    obtain rfl : m = 0 := by omega
    exact List.mem_singleton.mpr (climbs_zero_iff.mp hdist.1)
  queued a ha := .inl (List.mem_append_left _ ha)

/-- When the nearer ones have all been looked at, the others are the nearer ones. -/
theorem advance (hf : h.Frontier c n seen [] far) : h.Frontier c (n + 1) seen far [] where
  distance_near := hf.distance_far
  distance_far := nofun
  within a m hdist hle := by
    rcases Nat.lt_or_eq_of_le hle with hlt | rfl
    · exact hf.within a m hdist (by omega)
    · obtain ⟨b, hb, hparent⟩ := hdist.exists_child
      rcases hf.queued b (hf.within b n hb (Nat.le_refl n)) with hqueued | hlooked
      · -- what is in the queue is one step too far away to be the child
        have hsame : n + 1 = n := (hf.distance_far b hqueued).unique hb
        omega
      · exact hlooked a hparent
  queued a ha := by simpa using hf.queued a ha

/-- The first category in the queue is one of the nearer ones, if need be after an advance. -/
theorem exists_cons (hf : h.Frontier c n seen near far) (hqueue : near ++ far = a :: queue) :
    ∃ m near' far', n ≤ m ∧ queue = near' ++ far' ∧ h.Frontier c m seen (a :: near') far' := by
  cases near with
  | nil =>
    obtain rfl : far = a :: queue := hqueue
    exact ⟨n + 1, queue, [], Nat.le_succ n, (List.append_nil queue).symm, hf.advance⟩
  | cons b near =>
    obtain ⟨rfl, rfl⟩ := List.cons.inj hqueue
    exact ⟨n, near, far, Nat.le_refl n, rfl, hf⟩

/-- The parents of one of the nearer ones that have not been seen are one step further away. -/
theorem distance_of_mem_unseen (hf : h.Frontier c n seen (a :: near) far)
    (hp : p ∈ unseen seen (h.parentsOf a)) : h.Distance c p (n + 1) := by
  obtain ⟨hparent, hnew⟩ := mem_unseen.mp hp
  have hway : h.Climbs c (n + 1) p := .up (hf.distance_near a (List.mem_cons_self ..)).1 hparent
  obtain ⟨m, hle, hdist⟩ := hway.exists_distance
  rcases Nat.lt_or_eq_of_le hle with hlt | rfl
  · exact absurd (hf.within p m hdist (by omega)) hnew
  · exact hdist

/-- Looking at the parents of one of the nearer ones keeps the frontier. -/
theorem step (hf : h.Frontier c n seen (a :: near) far) :
    h.Frontier c n (seen ++ unseen seen (h.parentsOf a)) near
      (far ++ unseen seen (h.parentsOf a)) where
  distance_near b hb := hf.distance_near b (List.mem_cons_of_mem a hb)
  distance_far b hb := by
    rcases List.mem_append.mp hb with hfar | hnew
    · exact hf.distance_far b hfar
    · exact hf.distance_of_mem_unseen hnew
  within b m hdist hle := List.mem_append_left _ (hf.within b m hdist hle)
  queued b hb := by
    rcases List.mem_append.mp hb with hseen | hnew
    · rcases hf.queued b hseen with hqueued | hlooked
      · rcases List.mem_cons.mp hqueued with rfl | hrest
        · -- this is the one that is looked at
          refine .inr fun p hparent => ?_
          by_cases hp : p ∈ seen
          · exact List.mem_append_left _ hp
          · exact List.mem_append_right _ (mem_unseen.mpr ⟨hparent, hp⟩)
        · exact .inl (by rw [← List.append_assoc]; exact List.mem_append_left _ hrest)
      · exact .inr fun p hparent => List.mem_append_left _ (hlooked p hparent)
    · exact .inl (List.mem_append_right _ (List.mem_append_right _ hnew))

/-- When the queue is empty everything further up has been seen. -/
theorem completes_nil (hf : h.Frontier c n seen [] []) : h.Completes c n seen [] where
  beyond := nofun
  ordered := .nil
  complete m a way := by
    rw [List.append_nil]
    induction way with
    | start => exact hf.within c 0 distance_self (Nat.zero_le n)
    | up _ parent ih =>
      rcases hf.queued _ ih with hqueued | hlooked
      · exact absurd hqueued List.not_mem_nil
      · exact hlooked _ parent

/-- What one step sees comes before what the rest of the walk finds. -/
theorem completes_append (hf : h.Frontier c m seen (a :: near) far) (hle : n ≤ m)
    {found : List String}
    (hfound : h.Completes c m (seen ++ unseen seen (h.parentsOf a)) found) :
    h.Completes c n seen (unseen seen (h.parentsOf a) ++ found) where
  beyond b hb := by
    rcases List.mem_append.mp hb with hnew | hlater
    · exact ⟨m + 1, by omega, hf.distance_of_mem_unseen hnew⟩
    · obtain ⟨k, hlt, hdist⟩ := hfound.beyond b hlater
      exact ⟨k, by omega, hdist⟩
  ordered := by
    have hnew (b) (hb : b ∈ unseen seen (h.parentsOf a)) := hf.distance_of_mem_unseen hb
    refine List.pairwise_append.mpr ⟨?_, hfound.ordered, fun b hb d hd => ?_⟩
    · exact (nodup_unseen ..).pairwise_of_forall_ne fun b hb d hd _ =>
        ⟨m + 1, m + 1, hnew b hb, hnew d hd, Nat.le_refl _⟩
    · obtain ⟨k, hlt, hdist⟩ := hfound.beyond d hd
      exact ⟨m + 1, k, hnew b hb, hdist, hlt⟩
  complete k b way := by
    rw [← List.append_assoc]
    exact hfound.complete k b way

/-- A walk finds everything further up that is left to see, nearer categories first. -/
theorem completes_walk (seen queue : List String) : ∀ (n : Nat) (near far : List String),
    h.Frontier c n seen near far → near ++ far = queue →
      h.Completes c n seen (h.walk seen queue) := by
  fun_induction h.walk seen queue with
  | case1 seen =>
    intro n near far hf hqueue
    obtain ⟨rfl, rfl⟩ := List.append_eq_nil_iff.mp hqueue
    exact hf.completes_nil
  | case2 seen a queue new ih =>
    intro n near far hf hqueue
    obtain ⟨m, near, far, hle, rfl, hcons⟩ := hf.exists_cons hqueue
    exact hcons.completes_append hle (ih m near _ hcons.step (List.append_assoc ..).symm)

end Frontier

/-! ## Ancestors and matches -/

/-- A category counts as another one to which some steps lead up, more than one of them only in a
transitive hierarchy. -/
def CountsAs (h : Hierarchy) (c a : String) : Prop :=
  ∃ n, h.Climbs c n a ∧ (h.transitive = true ∨ n ≤ 1)

theorem completes_ancestors (transitive : h.transitive = true) (c : String) :
    h.Completes c 0 [c] (h.ancestors c) := by
  rw [ancestors, if_pos transitive]
  exact Frontier.completes_walk [c] [c] 0 [c] [] (.start h c) rfl

theorem nodup_ancestors (transitive : h.transitive = true) (c : String) :
    (h.ancestors c).Nodup ∧ c ∉ h.ancestors c := by
  rw [ancestors, if_pos transitive]
  obtain ⟨hnodup, hfresh⟩ := nodup_walk h [c] [c]
  exact ⟨hnodup, fun hc => hfresh c hc (List.mem_singleton_self c)⟩

/-- In a transitive hierarchy the ancestors are what any number of steps leads up to. -/
theorem mem_ancestors_iff (transitive : h.transitive = true) :
    a ∈ h.ancestors c ↔ a ≠ c ∧ ∃ n, h.Climbs c (n + 1) a := by
  have hfound := completes_ancestors transitive c
  constructor
  · intro ha
    refine ⟨fun heq => (nodup_ancestors transitive c).2 (heq ▸ ha), ?_⟩
    obtain ⟨m, hlt, hdist⟩ := hfound.beyond a ha
    obtain ⟨n, rfl⟩ := Nat.exists_eq_succ_of_ne_zero (Nat.ne_of_gt hlt)
    exact ⟨n, hdist.1⟩
  · rintro ⟨hne, n, way⟩
    rcases List.mem_append.mp (hfound.complete (n + 1) a way) with hstart | ha
    · exact absurd (List.mem_singleton.mp hstart) hne
    · exact ha

/-- A category counts as itself and its ancestors. -/
theorem countsAs_iff : h.CountsAs c a ↔ a = c ∨ a ∈ h.ancestors c := by
  unfold CountsAs
  cases htransitive : h.transitive with
  | true =>
    rw [mem_ancestors_iff htransitive]
    constructor
    · rintro ⟨n, way, -⟩
      cases n with
      | zero => exact .inl (climbs_zero_iff.mp way)
      | succ n => exact (Decidable.em (a = c)).imp_right fun hne => ⟨hne, n, way⟩
    · rintro (rfl | ⟨-, n, way⟩)
      · exact ⟨0, .start, .inl rfl⟩
      · exact ⟨n + 1, way, .inl rfl⟩
  | false =>
    have hancestors : h.ancestors c = h.parentsOf c := by simp [ancestors, htransitive]
    rw [hancestors]
    constructor
    · rintro ⟨n, way, hle⟩
      obtain rfl | rfl : n = 0 ∨ n = 1 := by
        have hone : n ≤ 1 := hle.resolve_left nofun
        omega
      · exact .inl (climbs_zero_iff.mp way)
      · exact .inr (climbs_one_iff.mp way)
    · rintro (rfl | hparent)
      · exact ⟨0, .start, .inr (Nat.zero_le 1)⟩
      · exact ⟨1, climbs_one_iff.mpr hparent, .inr (Nat.le_refl 1)⟩

/-- A category matches a list exactly if it counts as a member of the list. -/
theorem isMatch_iff_countsAs {matched : List String} :
    h.isMatch matched c = true ↔ ∃ a ∈ matched, h.CountsAs c a := by
  simp only [countsAs_iff, isMatch, Bool.or_eq_true, List.any_eq_true, List.contains_eq_mem,
    decide_eq_true_eq]
  constructor
  · rintro (hc | ⟨a, ha, hmem⟩)
    · exact ⟨c, hc, .inl rfl⟩
    · exact ⟨a, hmem, .inr ha⟩
  · rintro ⟨a, hmem, rfl | ha⟩
    · exact .inl hmem
    · exact .inr ⟨a, ha, hmem⟩

/-- **Matching a category is climbing from it.** In a transitive hierarchy, whatever loops there are
in it, the ancestors of a category are those other categories to which one or more steps lead up,
each of them once, nearer ones first, and a category matches a list exactly if any number of steps,
or none, lead up to a member. In a hierarchy that is not transitive it does if it is a member itself
or one of its parents is. -/
theorem isMatch_iff_climbs (h : Hierarchy) (c : String) :
    (h.transitive = true →
      (h.ancestors c).Nodup ∧ c ∉ h.ancestors c ∧
      (∀ a, a ∈ h.ancestors c ↔ a ≠ c ∧ ∃ n, h.Climbs c (n + 1) a) ∧
      (h.ancestors c).Pairwise (h.NoFarther c) ∧
      ∀ matched, h.isMatch matched c = true ↔ ∃ a ∈ matched, ∃ n, h.Climbs c n a) ∧
    (h.transitive = false →
      ∀ matched, h.isMatch matched c = true ↔ c ∈ matched ∨ ∃ p ∈ h.parentsOf c, p ∈ matched) := by
  constructor
  · intro transitive
    obtain ⟨hnodup, hself⟩ := nodup_ancestors transitive c
    refine ⟨hnodup, hself, fun a => mem_ancestors_iff transitive,
      (completes_ancestors transitive c).ordered, fun matched => ?_⟩
    simp only [isMatch_iff_countsAs, CountsAs, transitive, true_or, and_true]
  · intro direct matched
    have hancestors : h.ancestors c = h.parentsOf c := by simp [ancestors, direct]
    rw [isMatch_iff_countsAs]
    simp only [countsAs_iff, hancestors]
    constructor
    · rintro ⟨a, hmem, rfl | hparent⟩
      · exact .inl hmem
      · exact .inr ⟨a, hparent, hmem⟩
    · rintro (hmem | ⟨p, hparent, hmem⟩)
      · exact ⟨c, hmem, .inl rfl⟩
      · exact ⟨p, hmem, .inr hparent⟩

/-- A transitive hierarchy in which sushi has a parent named twice, two ways lead up from it to
dining, going out is its own parent, and dining comes back to sushi. -/
def tangled : Hierarchy where
  parents := .ofList [("sushi", ["japanese", "fish", "japanese"]), ("japanese", ["dining"]),
    ("fish", ["food", "dining"]), ("dining", ["going_out", "sushi"]), ("going_out", ["going_out"])]
  transitive := true

/-- Sushi counts as going out and not as travel. Its ancestors are listed once and without sushi,
and what is one step up comes first. -/
theorem isMatch_iff_climbs_tangled :
    tangled.transitive = true ∧
      tangled.ancestors "sushi" = ["japanese", "fish", "dining", "food", "going_out"] ∧
      (tangled.ancestors "sushi").Nodup ∧ "sushi" ∉ tangled.ancestors "sushi" ∧
      (∃ n, tangled.Climbs "sushi" (n + 1) "going_out") ∧
      tangled.NoFarther "sushi" "japanese" "going_out" ∧
      tangled.isMatch ["travel", "going_out"] "sushi" = true ∧
      ¬ ∃ n, tangled.Climbs "sushi" n "travel" := by
  obtain ⟨hnodup, hself, hmem, hordered, hmatch⟩ := (isMatch_iff_climbs tangled "sushi").1 rfl
  have hparents : tangled.parentsOf "sushi" = ["japanese", "fish", "japanese"] ∧
      tangled.parentsOf "japanese" = ["dining"] ∧ tangled.parentsOf "fish" = ["food", "dining"] ∧
      tangled.parentsOf "dining" = ["going_out", "sushi"] ∧ tangled.parentsOf "food" = [] ∧
      tangled.parentsOf "going_out" = ["going_out"] := by decide +kernel
  have htransitive : tangled.transitive = true := rfl
  have hlist : tangled.ancestors "sushi" = ["japanese", "fish", "dining", "food", "going_out"] := by
    simp [ancestors, htransitive, walk, unseen, hparents]
  have hway : "going_out" ≠ "sushi" ∧ ∃ n, tangled.Climbs "sushi" (n + 1) "going_out" :=
    (hmem "going_out").mp (by simp [hlist])
  obtain ⟨-, n, hclimbs⟩ := hway
  have hnearer : tangled.NoFarther "sushi" "japanese" "going_out" := by
    rw [hlist] at hordered
    exact (List.pairwise_cons.mp hordered).1 "going_out" (by simp)
  refine ⟨htransitive, hlist, hnodup, hself, ⟨n, hclimbs⟩, hnearer, ?_, ?_⟩
  · exact (hmatch ["travel", "going_out"]).mpr ⟨"going_out", by simp, n + 1, hclimbs⟩
  · rintro ⟨k, hway⟩
    have hmatches := (hmatch ["travel"]).mpr ⟨"travel", by simp, k, hway⟩
    have hnone : tangled.isMatch ["travel"] "sushi" = false := by simp [isMatch, hlist]
    rw [hnone] at hmatches
    cases hmatches

end Hierarchy

end CardRewards
