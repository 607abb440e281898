import CardRewards.Proofs.Dict
import CardRewards.Rule.Conflict

/-!
# Counters belong to one cap mode

After a list of specifications has been checked, no counter is used by the caps of two rules in
different modes: `mode_eq_of_key_eq`. So a counter of rewards never adds up spending, and the other
way round. The reason is that the conflicts are the counters in both modes, each listed with every
rule that uses it (`ListsConflicts`, `listsConflicts_capConflicts`), and that a rule listed with a
conflict has lost its cap (`of_cap?_compileAll`).
-/

namespace CardRewards

namespace Rule

variable {α : Type}

/-- A rule with a cap is a flat one. -/
theorem effect_of_cap? {r : Rule α} {cap : Cap α} (h : r.cap? = some cap) :
    ∃ composition rate, r.effect = .flat composition rate (some cap) := by
  unfold cap? at h
  split at h
  next composition rate _ heffect => exact ⟨composition, rate, heffect.trans (by rw [h])⟩
  next => simp at h

theorem observed?_eq_some_iff {r : Rule α} {mission : String} :
    r.observed? = some mission ↔ r.effect = .observer mission := by
  unfold observed?
  cases r.effect <;> simp

theorem cap?_downgrade (r : Rule α) (defect : Defect α) : (r.downgrade defect).cap? = none := rfl

theorem capUses_eq_nil {r : Rule α} (h : r.cap? = none) : r.capUses = [] := by
  simp [capUses, h]

/-- A use of a counter names the rule that uses it. -/
theorem ruleId_of_mem_capUses {r : Rule α} {use : CapUse} (h : use ∈ r.capUses) :
    use.ruleId = r.id := by
  unfold capUses at h
  split at h
  next => simp at h
  next cap _ =>
    rcases List.mem_cons.mp h with rfl | h
    · rfl
    · split at h
      next => simp at h; rw [h]
      next => simp at h

/-! ## Uses of counters -/

/-- The cap of a rule uses a counter in a mode: as its first one, or as the second of a cap on
rewards. -/
def Uses (r : Rule α) (key : CounterKey) (mode : CapMode) : Prop :=
  ∃ cap ∈ r.cap?, cap.mode = mode ∧
    (cap.key = key ∨ mode = .reward ∧ ∃ second ∈ cap.secondary, second.key = key)

theorem uses_iff {r : Rule α} {key : CounterKey} {mode : CapMode} :
    r.Uses key mode ↔ ⟨key.text, mode, r.id⟩ ∈ r.capUses := by
  obtain ⟨text⟩ := key
  unfold Uses capUses
  cases r.cap? with
  | none => simp
  | some cap =>
    obtain ⟨⟨first⟩, limit, capMode, secondary⟩ := cap
    -- only of a cap on rewards is the second counter looked at
    obtain _ | ⟨⟨second⟩, _⟩ := secondary <;> cases capMode <;> cases mode <;> simp [eq_comm]

theorem mem_allCapUses_iff {rules : List (Rule α)} {use : CapUse} :
    use ∈ allCapUses rules ↔ ∃ r ∈ rules, r.id = use.ruleId ∧ r.Uses ⟨use.key⟩ use.mode := by
  obtain ⟨key, mode, id⟩ := use
  unfold allCapUses
  rw [List.mem_flatMap]
  refine exists_congr fun r => and_congr_right fun _ => ?_
  rw [uses_iff]
  constructor
  · intro h
    obtain rfl : id = r.id := ruleId_of_mem_capUses h
    exact ⟨rfl, h⟩
  · rintro ⟨rfl, h⟩
    exact h

/-! ## Conflicts -/

/-- A list has the counters that some rules use in both modes, in order and each of them once, with
the sorted ids of all rules that use it. -/
structure ListsConflicts (rules : List (Rule α)) (conflicts : List (String × List String)) :
    Prop where
  sorted : (conflicts.map Prod.fst).Pairwise (· < ·)
  mem_keys_iff : ∀ key, key ∈ conflicts.map Prod.fst ↔ ∀ mode, ∃ r ∈ rules, r.Uses ⟨key⟩ mode
  ids_sorted : ∀ conflict ∈ conflicts, conflict.2.Pairwise (· < ·)
  mem_ids_iff : ∀ conflict ∈ conflicts, ∀ id,
    id ∈ conflict.2 ↔ ∃ r ∈ rules, r.id = id ∧ ∃ mode, r.Uses ⟨conflict.1⟩ mode

theorem isShared_iff {rules : List (Rule α)} {key : String} :
    isShared (allCapUses rules) key = true ↔ ∀ mode, ∃ r ∈ rules, r.Uses ⟨key⟩ mode := by
  have huse (mode : CapMode) :
      (∃ use ∈ allCapUses rules, use.key = key ∧ use.mode = mode) ↔
        ∃ r ∈ rules, r.Uses ⟨key⟩ mode := by
    constructor
    · rintro ⟨use, hmem, rfl, rfl⟩
      obtain ⟨r, hr, -, huses⟩ := mem_allCapUses_iff.mp hmem
      exact ⟨r, hr, huses⟩
    · rintro ⟨r, hr, huses⟩
      exact ⟨⟨key, mode, r.id⟩, mem_allCapUses_iff.mpr ⟨r, hr, rfl, huses⟩, rfl, rfl⟩
  simp only [isShared, Bool.and_eq_true, List.any_eq_true, decide_eq_true_eq, huse]
  constructor
  · rintro ⟨hspending, hreward⟩ (_ | _)
    · exact hspending
    · exact hreward
  · exact fun h => ⟨h .spending, h .reward⟩

theorem listsConflicts_capConflicts (rules : List (Rule α)) :
    ListsConflicts rules (capConflicts rules) := by
  have hkeys : (capConflicts rules).map Prod.fst =
      (Text.sortedSet ((allCapUses rules).map (·.key))).filter (isShared (allCapUses rules)) := by
    simp [capConflicts, Function.comp_def]
  constructor
  · rw [hkeys]
    exact (Text.sortedSet_pairwise _).filter _
  · intro key
    rw [hkeys, List.mem_filter, Text.mem_sortedSet, isShared_iff]
    refine and_iff_right_of_imp fun h => ?_
    -- a counter that is used is among the counters
    obtain ⟨r, hr, huses⟩ := h .spending
    exact List.mem_map.mpr ⟨⟨key, .spending, r.id⟩, mem_allCapUses_iff.mpr ⟨r, hr, rfl, huses⟩, rfl⟩
  · intro conflict hconflict
    obtain ⟨key, -, rfl⟩ := List.mem_map.mp hconflict
    exact Text.sortedSet_pairwise _
  · intro conflict hconflict id
    obtain ⟨key, -, rfl⟩ := List.mem_map.mp hconflict
    simp only [Text.mem_sortedSet, List.mem_map, List.mem_filter, decide_eq_true_eq]
    constructor
    · rintro ⟨use, ⟨hmem, rfl⟩, rfl⟩
      obtain ⟨r, hr, hid, huses⟩ := mem_allCapUses_iff.mp hmem
      exact ⟨r, hr, hid, use.mode, huses⟩
    · rintro ⟨r, hr, rfl, mode, huses⟩
      exact ⟨⟨key, mode, r.id⟩, ⟨mem_allCapUses_iff.mpr ⟨r, hr, rfl, huses⟩, rfl⟩, rfl⟩

/-- A conflict is over a counter that is used in both modes. -/
theorem exists_uses_of_mem_capConflicts {rules : List (Rule α)} {conflict : String × List String}
    (h : conflict ∈ capConflicts rules) (mode : CapMode) :
    ∃ r ∈ rules, r.Uses ⟨conflict.1⟩ mode :=
  ((listsConflicts_capConflicts rules).mem_keys_iff conflict.1).mp (List.mem_map_of_mem h) mode

/-- A rule listed with a conflict uses the counter, and another one does in the other mode. -/
theorem exists_clash_of_mem_capConflicts {rules : List (Rule α)}
    {conflict : String × List String} (h : conflict ∈ capConflicts rules) {id : String}
    (hid : id ∈ conflict.2) :
    ∃ r ∈ rules, r.id = id ∧ ∃ mode, r.Uses ⟨conflict.1⟩ mode ∧
      ∃ other ∈ rules, ∃ mode', mode' ≠ mode ∧ other.Uses ⟨conflict.1⟩ mode' := by
  have hboth := exists_uses_of_mem_capConflicts h
  obtain ⟨r, hr, hsame, mode, huses⟩ :=
    ((listsConflicts_capConflicts rules).mem_ids_iff conflict h id).mp hid
  refine ⟨r, hr, hsame, mode, huses, ?_⟩
  cases mode with
  | spending =>
    obtain ⟨other, hother, huses'⟩ := hboth .reward
    exact ⟨other, hother, .reward, nofun, huses'⟩
  | reward =>
    obtain ⟨other, hother, huses'⟩ := hboth .spending
    exact ⟨other, hother, .spending, nofun, huses'⟩

/-- A counter used in both modes is a conflict, listed with every rule that uses it. -/
theorem mem_capConflicts_of_modes {rules : List (Rule α)} {a b : CapUse}
    (ha : a ∈ allCapUses rules) (hb : b ∈ allCapUses rules) (hkey : a.key = b.key)
    (hmode : a.mode ≠ b.mode) :
    ∃ conflict ∈ capConflicts rules, a.ruleId ∈ conflict.2 ∧ b.ruleId ∈ conflict.2 := by
  obtain ⟨r, hr, hid, huses⟩ := mem_allCapUses_iff.mp ha
  obtain ⟨r', hr', hid', huses'⟩ := mem_allCapUses_iff.mp hb
  rw [← hkey] at huses'
  have hlists := listsConflicts_capConflicts rules
  -- one of the two uses counts spending and the other one rewards
  have hmodes (mode : CapMode) : mode = a.mode ∨ mode = b.mode := by
    revert hmode
    cases a.mode <;> cases b.mode <;> cases mode <;> decide
  have hboth (mode : CapMode) : ∃ r ∈ rules, r.Uses ⟨a.key⟩ mode := by
    rcases hmodes mode with rfl | rfl
    · exact ⟨r, hr, huses⟩
    · exact ⟨r', hr', huses'⟩
  obtain ⟨conflict, hconflict, hsame⟩ := List.mem_map.mp ((hlists.mem_keys_iff a.key).mpr hboth)
  rw [← hsame] at huses huses'
  exact ⟨conflict, hconflict,
    (hlists.mem_ids_iff conflict hconflict _).mpr ⟨r, hr, hid, a.mode, huses⟩,
    (hlists.mem_ids_iff conflict hconflict _).mpr ⟨r', hr', hid', b.mode, huses'⟩⟩

/-! ## Checked rules -/

/-- No conflict names a rule exactly if it is listed with none. -/
theorem conflictOf?_eq_none_iff {conflicts : List (String × List String)} {id : String} :
    (conflictOf? conflicts id : Option (Defect α)) = none ↔
      ∀ conflict ∈ conflicts, id ∉ conflict.2 := by
  simp [conflictOf?]

/-- The defect of a conflict is the counter that is shared. -/
theorem of_conflictOf? {conflicts : List (String × List String)} {id : String} {defect : Defect α}
    (h : conflictOf? conflicts id = some defect) :
    ∃ conflict ∈ conflicts, id ∈ conflict.2 ∧ defect = .sharedCapKey conflict.1 := by
  obtain ⟨conflict, hlast, rfl⟩ := Option.map_eq_some_iff.mp h
  have hmem := List.mem_filter.mp (List.mem_of_getLast? hlast)
  exact ⟨conflict, hmem.1, by simpa using hmem.2, rfl⟩

variable [Amount α]

/-- Under an id stands the last specification with it, checked by itself. -/
theorem get?_standalone (specs : List (RuleSpec α)) (id : String) :
    (standalone specs).get? id = (specs.reverse.find? (·.id = id)).map ofSpec := by
  rw [standalone, Dict.get?_ofList, ← List.map_reverse, List.find?_map, Option.map_map]
  rfl

/-- A rule that was checked by itself stands under its own id. -/
theorem of_get?_standalone {specs : List (RuleSpec α)} {id : String} {r : Rule α}
    (h : (standalone specs).get? id = some r) : ∃ s ∈ specs, r = ofSpec s ∧ r.id = id := by
  rw [get?_standalone] at h
  obtain ⟨s, hfound, rfl⟩ := Option.map_eq_some_iff.mp h
  refine ⟨s, List.mem_reverse.mp (List.mem_of_find?_eq_some hfound), rfl, ?_⟩
  rw [id_ofSpec]
  simpa using List.find?_some hfound

/-- A checked rule is one checked by itself, perhaps with a defect in place of its effect: that it
takes part in a conflict. -/
theorem of_get?_compileAll {specs : List (RuleSpec α)} {id : String} {r : Rule α}
    (h : (compileAll specs).get? id = some r) :
    ∃ r₀, (standalone specs).get? id = some r₀ ∧
      (r = r₀ ∧ (∀ conflict ∈ capConflicts (standalone specs).values, r₀.id ∉ conflict.2) ∨
        ∃ conflict ∈ capConflicts (standalone specs).values, r₀.id ∈ conflict.2 ∧
          r = r₀.downgrade (.sharedCapKey conflict.1)) := by
  unfold compileAll at h
  rw [Dict.get?_map] at h
  obtain ⟨r₀, hr₀, heq⟩ := Option.map_eq_some_iff.mp h
  refine ⟨r₀, hr₀, ?_⟩
  split at heq
  next defect hdefect =>
    obtain ⟨conflict, hconflict, hid, rfl⟩ := of_conflictOf? hdefect
    exact .inr ⟨conflict, hconflict, hid, heq.symm⟩
  next hnone => exact .inl ⟨heq.symm, conflictOf?_eq_none_iff.mp hnone⟩

/-- A checked rule stands under its own id. -/
theorem id_of_get?_compileAll {specs : List (RuleSpec α)} {id : String} {r : Rule α}
    (h : (compileAll specs).get? id = some r) : r.id = id := by
  obtain ⟨r₀, hr₀, hcase⟩ := of_get?_compileAll h
  obtain ⟨s, -, -, hid⟩ := of_get?_standalone hr₀
  rcases hcase with ⟨rfl, -⟩ | ⟨conflict, -, -, rfl⟩
  · exact hid
  · exact hid

/-- A checked rule with a cap was checked by itself and takes part in no conflict. -/
theorem of_cap?_compileAll {specs : List (RuleSpec α)} {r : Rule α}
    (hr : r ∈ (compileAll specs).values) (hcap : r.cap? ≠ none) :
    r ∈ (standalone specs).values ∧
      ∀ conflict ∈ capConflicts (standalone specs).values, r.id ∉ conflict.2 := by
  obtain ⟨id, hid⟩ := Dict.mem_values_iff.mp hr
  obtain ⟨r₀, hr₀, hcase⟩ := of_get?_compileAll hid
  rcases hcase with ⟨rfl, hnone⟩ | ⟨conflict, -, -, rfl⟩
  · exact ⟨Dict.mem_values_of_get? hr₀, hnone⟩
  · exact absurd (cap?_downgrade r₀ _) hcap

/-- **No counter in two modes**: the caps of checked rules that use the same counter use it in the
same mode. -/
theorem mode_eq_of_key_eq {specs : List (RuleSpec α)} {r r' : Rule α} {a b : CapUse}
    (hr : r ∈ (compileAll specs).values) (hr' : r' ∈ (compileAll specs).values)
    (ha : a ∈ r.capUses) (hb : b ∈ r'.capUses) (hkey : a.key = b.key) : a.mode = b.mode := by
  have hcap : r.cap? ≠ none := fun h => by simp [capUses_eq_nil h] at ha
  have hcap' : r'.cap? ≠ none := fun h => by simp [capUses_eq_nil h] at hb
  obtain ⟨hmem, hfree⟩ := of_cap?_compileAll hr hcap
  obtain ⟨hmem', -⟩ := of_cap?_compileAll hr' hcap'
  refine Decidable.byContradiction fun hmode => ?_
  obtain ⟨conflict, hconflict, hid, -⟩ := mem_capConflicts_of_modes
    (List.mem_flatMap.mpr ⟨r, hmem, ha⟩) (List.mem_flatMap.mpr ⟨r', hmem', hb⟩) hkey hmode
  rw [ruleId_of_mem_capUses ha] at hid
  exact hfree conflict hconflict hid

end Rule

end CardRewards
