import CardRewards.Proofs.Schedule
import CardRewards.Scheme.Sample
import Mathlib.Data.List.Induction

/-!
# Which registration holds

Rules, missions and campaigns may register the same counter, and only one of them sets it back. The
schedule goes through all registrations in order and lets a later one take over only if it has a
higher priority. So what it ends up with can be said without going through them: of the
registrations of a counter that one holds which has the highest priority, and of several such the
earliest (`Registration.HoldsIn`). A step from one registration to the next keeps to that
(`Registration.holdsIn_concat`, `Schedule.get?_register_eq_some_iff`), and so does the whole
schedule (`Scheme.get?_schedule_iff`).

The rules register in the order in which the cards list them, then in their own order, each id once
and with its first definition (`Scheme.ruleOrder_eq`).
-/

namespace CardRewards

/-! ## The earliest of highest priority -/

namespace Registration

/-- A registration has the highest priority among those of its counter, and those before it have a
lower one. -/
def HoldsIn (r : Registration) (registrations : List Registration) : Prop :=
  ∃ before after, registrations = before ++ r :: after ∧
    (∀ other ∈ before, other.key = r.key →
      other.entry.priority.height < r.entry.priority.height) ∧
    ∀ other ∈ after, other.key = r.key → other.entry.priority.height ≤ r.entry.priority.height

variable {r last other : Registration} {registrations : List Registration}

theorem HoldsIn.mem (h : r.HoldsIn registrations) : r ∈ registrations := by
  obtain ⟨before, after, rfl, -, -⟩ := h
  exact List.mem_append_right before (List.mem_cons_self ..)

/-- No registration of the counter has a higher priority than the one that holds. -/
theorem HoldsIn.height_le (h : r.HoldsIn registrations) (hother : other ∈ registrations)
    (hkey : other.key = r.key) : other.entry.priority.height ≤ r.entry.priority.height := by
  obtain ⟨before, after, rfl, hbefore, hafter⟩ := h
  rcases List.mem_append.mp hother with hmem | hmem
  · exact Nat.le_of_lt (hbefore other hmem hkey)
  · rcases List.mem_cons.mp hmem with rfl | hmem
    · exact Nat.le_refl _
    · exact hafter other hmem hkey

/-- Behind other registrations one more leaves the one that holds in its place unless it has a
higher priority, and holds itself if it has a higher one than all others of its counter. -/
theorem holdsIn_concat :
    r.HoldsIn (registrations ++ [last]) ↔
      r.HoldsIn registrations ∧
          (last.key = r.key → last.entry.priority.height ≤ r.entry.priority.height) ∨
        last = r ∧ ∀ other ∈ registrations, other.key = r.key →
          other.entry.priority.height < r.entry.priority.height := by
  constructor
  · intro h
    obtain ⟨before, after, heq, hbefore, hafter⟩ := h
    rcases List.eq_nil_or_concat after with rfl | ⟨front, back, rfl⟩
    · obtain ⟨rfl, hsame⟩ := List.append_inj' heq rfl
      obtain rfl := List.singleton_inj.mp hsame
      exact .inr ⟨rfl, hbefore⟩
    · rw [List.concat_eq_append] at hafter heq
      rw [← List.cons_append, ← List.append_assoc] at heq
      obtain ⟨rfl, hsame⟩ := List.append_inj' heq rfl
      obtain rfl := List.singleton_inj.mp hsame
      refine .inl ⟨⟨before, front, rfl, hbefore, ?_⟩, hafter last (by simp)⟩
      intro other hother
      exact hafter other (List.mem_append_left _ hother)
  · intro h
    rcases h with ⟨⟨before, after, rfl, hbefore, hafter⟩, hlast⟩ | ⟨rfl, hall⟩
    · refine ⟨before, after ++ [last], by simp, hbefore, ?_⟩
      intro other hother
      rcases List.mem_append.mp hother with hmem | hmem
      · exact hafter other hmem
      · rw [List.mem_singleton.mp hmem]
        exact hlast
    · exact ⟨registrations, [], rfl, hall, by simp⟩

end Registration

namespace Schedule

variable {s : Schedule} {r : Registration} {key : CounterKey} {entry : ScheduleEntry}

/-- After a registration an entry is the one from before, unless the registration has a higher
priority; or it is that of the registration, which has a higher priority than the one from
before. -/
theorem get?_register_eq_some_iff :
    (s.register r).get? key.text = some entry ↔
      s.get? key.text = some entry ∧
          (r.key = key → r.entry.priority.height ≤ entry.priority.height) ∨
        r = ⟨key, entry⟩ ∧ ∀ held, s.get? key.text = some held →
          held.priority.height < entry.priority.height := by
  obtain ⟨key', entry'⟩ := r
  by_cases hkey : key' = key
  · subst hkey
    simp only [forall_const, Registration.mk.injEq, true_and]
    unfold register
    cases hheld : s.get? key'.text with
    | none => simp [eq_comm]
    | some held =>
      dsimp only
      by_cases hlower : held.priority.height < entry'.priority.height
      · rw [if_pos hlower, Dict.get?_insert_self]
        constructor
        · intro hentry
          cases hentry
          exact .inr ⟨rfl, fun held' hheld' => Option.some.inj hheld' ▸ hlower⟩
        · intro h
          rcases h with ⟨⟨⟩, hle⟩ | ⟨rfl, -⟩
          · exact absurd hlower (Nat.not_lt.mpr hle)
          · rfl
      · rw [if_neg hlower, hheld]
        constructor
        · intro hentry
          cases hentry
          exact .inl ⟨rfl, Nat.not_lt.mp hlower⟩
        · intro h
          rcases h with ⟨hsame, -⟩ | ⟨rfl, hhigher⟩
          · exact hsame
          · exact absurd (hhigher held rfl) hlower
  · -- the entries of other counters are left alone
    have htext : key.text ≠ key'.text := fun heq => hkey (congrArg CounterKey.mk heq.symm)
    have hother : (s.register ⟨key', entry'⟩).get? key.text = s.get? key.text := by
      unfold register
      split
      · split
        · exact Dict.get?_insert_of_ne s entry' htext
        · rfl
      · exact Dict.get?_insert_of_ne s entry' htext
    rw [hother]
    simp [hkey]

/-- From registrations one after another the schedule has the entry that holds. -/
theorem get?_foldl_register_eq_some_iff (registrations : List Registration) :
    ∀ (key : CounterKey) (entry : ScheduleEntry),
      (registrations.foldl register .empty).get? key.text = some entry ↔
        Registration.HoldsIn ⟨key, entry⟩ registrations := by
  induction registrations using List.reverseRecOn with
  | nil =>
    intro key entry
    constructor
    · intro h
      exact nomatch h
    · intro h
      exact nomatch h.mem
  | append_singleton registrations last ih =>
    intro key entry
    rw [List.foldl_append, List.foldl_cons, List.foldl_nil, get?_register_eq_some_iff, ih,
      Registration.holdsIn_concat]
    refine or_congr Iff.rfl (and_congr_right fun _ => ?_)
    constructor
    · -- some registration of the counter holds already, and no other one is higher than that
      intro hheld other hother hkey
      have hpresent : (registrations.foldl register .empty).contains key.text = true :=
        (contains_foldl_register registrations key.text .empty).mpr
          (.inr ⟨other, hother, congrArg CounterKey.text hkey⟩)
      obtain ⟨held, hentry⟩ := Option.isSome_iff_exists.mp hpresent
      have hle := ((ih key held).mp hentry).height_le hother hkey
      exact Nat.lt_of_le_of_lt hle (hheld held hentry)
    · intro hall held hentry
      exact hall ⟨key, held⟩ ((ih key held).mp hentry).mem rfl

end Schedule

/-! ## The order of the rules -/

/-- Leaving out what does not fit and what was there before can be done in either order. -/
theorem filter_eraseDups {β : Type} [BEq β] [LawfulBEq β] (p : β → Bool) :
    ∀ l : List β, l.eraseDups.filter p = (l.filter p).eraseDups
  | [] => rfl
  | x :: rest => by
    have ih := filter_eraseDups p (rest.filter fun y => !y == x)
    rw [List.eraseDups_cons]
    by_cases hx : p x = true
    · rw [List.filter_cons_of_pos hx, List.filter_cons_of_pos hx, List.eraseDups_cons, ih,
        List.filter_filter, List.filter_filter]
      simp only [Bool.and_comm]
    · rw [List.filter_cons_of_neg hx, List.filter_cons_of_neg hx, ih, List.filter_filter]
      -- what fits is not the element that does not
      refine congrArg _ (List.filter_congr fun y _ => ?_)
      cases hy : p y with
      | false => rfl
      | true =>
        have hne : y ≠ x := fun heq => hx (heq ▸ hy)
        simp [hne]
  termination_by l => l.length
  decreasing_by
    have := List.length_filter_le (fun y => !y == x) rest
    simp only [List.length_cons]
    omega

namespace RuleSpec

variable {α : Type} {spec : RuleSpec α}

/-- The counters that a rule names: its caps and the counter of its gate as they are written, and
the counter of the mission that it is gated by, where these are not empty. -/
theorem mem_namedKeys_iff {key : CounterKey} :
    key ∈ spec.namedKeys ↔
      (∃ text, text ≠ "" ∧ key = .configured text ∧
        (spec.capKey = some text ∨ spec.secondaryCapKey = some text ∨
          spec.reqMissionKey = some text)) ∨
      ∃ mission, mission ≠ "" ∧ key = .missionEligible mission ∧
        spec.reqMissionId = some mission := by
  unfold namedKeys
  simp only [List.mem_append, List.mem_filterMap, List.mem_cons, List.not_mem_nil, or_false,
    Option.mem_toList, Option.map_eq_some_iff, Text.bind_nonempty?_eq_some_iff]
  constructor
  · intro h
    rcases h with ⟨written, hwritten, text, ⟨rfl, hne⟩, rfl⟩ | ⟨mission, ⟨hmission, hne⟩, rfl⟩
    · exact .inl ⟨text, hne, rfl, by simpa [eq_comm] using hwritten⟩
    · exact .inr ⟨mission, hne, rfl, hmission⟩
  · intro h
    rcases h with ⟨text, hne, rfl, hwritten⟩ | ⟨mission, hne, rfl, hmission⟩
    · exact .inl ⟨some text, by simpa [eq_comm] using hwritten, text, ⟨rfl, hne⟩, rfl⟩
    · exact .inr ⟨mission, ⟨hmission, hne⟩, rfl⟩

end RuleSpec

namespace Scheme

variable {α : Type} {s : Scheme α}

theorem map_id_firstById (rules : List (RuleSpec α)) :
    ∀ seen : List String, (firstById seen rules).map (·.id) =
      ((rules.map (·.id)).filter (!seen.contains ·)).eraseDups := by
  induction rules with
  | nil => intro seen; rfl
  | cons r rest ih =>
    intro seen
    unfold firstById
    rw [List.map_cons]
    by_cases hseen : seen.contains r.id = true
    · rw [if_pos hseen, ih, List.filter_cons_of_neg (by simpa using hseen)]
    · rw [if_neg hseen, List.map_cons, ih, List.filter_cons_of_pos (by simpa using hseen),
        List.eraseDups_cons, List.filter_filter]
      congr 2
      refine List.filter_congr fun id _ => ?_
      by_cases hid : id = r.id <;> simp [hid]

/-- The rules are registered in the order in which the cards list them and then in their own order,
each id once, with the first definition of it. -/
theorem ruleOrder_eq (s : Scheme α) :
    s.ruleOrder =
      (s.cards.flatMap (·.rules) ++ s.rules.map (·.id)).eraseDups.filterMap s.rule? := by
  -- a rule that is registered is the one that a look-up finds, so its id is enough
  have hself : (s.ruleOrder.map (·.id)).filterMap s.rule? = s.ruleOrder := by
    rw [List.filterMap_map]
    refine (List.filterMap_congr fun spec hspec => ?_).trans List.filterMap_some
    exact mem_ruleOrder.mp hspec
  -- the cards may list ids without a rule, which come to nothing in both
  have hlisted : ((s.cards.flatMap (·.rules)).filterMap s.rule?).map (·.id) =
      (s.cards.flatMap (·.rules)).filter fun id => (s.rule? id).isSome := by
    rw [List.map_filterMap, ← List.filterMap_eq_filter]
    refine List.filterMap_congr fun id _ => ?_
    cases hid : s.rule? id with
    | none => simp [Option.guard, hid]
    | some spec => simp [Option.guard, hid, (of_rule? hid).2]
  have hdefined : (s.rules.map (·.id)).filter (fun id => (s.rule? id).isSome) =
      s.rules.map (·.id) := by
    rw [List.filter_eq_self]
    intro id hid
    obtain ⟨spec, hspec, rfl⟩ := List.mem_map.mp hid
    exact List.find?_isSome.mpr ⟨spec, hspec, by simp⟩
  rw [← hself, ruleOrder, map_id_firstById, List.map_append, hlisted]
  nth_rewrite 1 [← hdefined]
  rw [← List.filter_append, List.filter_eq_self.mpr (by simp), ← filter_eraseDups,
    List.filterMap_filter]
  refine List.filterMap_congr fun id _ => ?_
  cases s.rule? id with
  | none => rfl
  | some spec => rfl

/-- A counter has the entry that holds among all registrations of the scheme. -/
theorem get?_schedule_iff {key : CounterKey} {entry : ScheduleEntry} :
    s.schedule.get? key.text = some entry ↔ Registration.HoldsIn ⟨key, entry⟩ s.registrations :=
  Schedule.get?_foldl_register_eq_some_iff s.registrations key entry

/-- Counters are registered with a period of their own if there is one, and else with a default, as
a fallback. -/
theorem registerAll_periodOr (keys : List CounterKey) (default : Period) (given : Option Period)
    (provenance : Provenance) :
    registerAll keys (periodOr default given) provenance =
      keys.map fun key => ⟨key, given.getD default, provenance,
        if given.isSome then .explicit else .fallback⟩ := by
  cases given <;> rfl

/-- **Of the registrations of a counter the earliest of highest priority holds.** Registered are, in
this order: the counters that the rules name, with the period of the rule or else the default, and
those of the missions they count for, with the default; the counters of the missions; those that a
campaign lists or the rules listed by it name, with the period of the campaign; and those of the
tier program. A counter has an entry exactly if it is registered, and the entry is what was
registered first with the highest priority, where what has a period of its own goes before campaigns
and these before defaults. -/
theorem schedule_earliest_of_highest (s : Scheme α) :
    let rules := (s.cards.flatMap (·.rules) ++ s.rules.map (·.id)).eraseDups.filterMap s.rule?
    let registered (default : Period) (given : Option Period) (provenance : Provenance)
        (key : CounterKey) : Registration :=
      ⟨key, given.getD default, provenance, if given.isSome then .explicit else .fallback⟩
    let walk : List Registration :=
      (rules.flatMap fun rule =>
        rule.namedKeys.map (registered s.defaultPeriod rule.period (.rule rule.id)) ++
          rule.missionId.toList.flatMap fun mission =>
            [.missionTotal mission, .missionEligible mission].map
              (registered s.defaultPeriod none (.rule rule.id))) ++
      (s.missions.flatMap fun m =>
        [.missionTotal m.id, .missionEligible m.id].map
          (registered s.defaultPeriod m.period (.mission m.id))) ++
      (s.campaigns.flatMap fun c =>
        ((c.ruleIds.filterMap s.rule?).flatMap RuleSpec.namedKeys ++
          c.keys.map CounterKey.configured).map
            fun key => ⟨key, c.period, .campaign c.id, .promotion⟩) ++
      s.tierProgram.toList.flatMap fun program =>
        [.tierReward program.id, .tierSpend program.id].map
          (registered .tier program.period (.tier program.id))
    (∀ key, s.Schedules key ↔ ∃ r ∈ walk, r.key = key) ∧
    (∀ key entry, s.schedule.get? key.text = some entry ↔
      ∃ before after, walk = before ++ ⟨key, entry⟩ :: after ∧
        (∀ r ∈ before, r.key = key → r.entry.priority.height < entry.priority.height) ∧
        ∀ r ∈ after, r.key = key → r.entry.priority.height ≤ entry.priority.height) ∧
    (∀ p q : Priority, p.height < q.height ↔
      p = .fallback ∧ q ≠ .fallback ∨ p = .promotion ∧ q = .explicit) ∧
    ∀ (rule : RuleSpec α) key, key ∈ rule.namedKeys ↔
      (∃ text, text ≠ "" ∧ key = .configured text ∧
        (rule.capKey = some text ∨ rule.secondaryCapKey = some text ∨
          rule.reqMissionKey = some text)) ∨
      ∃ mission, mission ≠ "" ∧ key = .missionEligible mission ∧
        rule.reqMissionId = some mission := by
  intro rules registered walk
  have hrule (rule : RuleSpec α) : s.ruleRegistrations rule =
      rule.namedKeys.map (registered s.defaultPeriod rule.period (.rule rule.id)) ++
        rule.missionId.toList.flatMap fun mission =>
          [.missionTotal mission, .missionEligible mission].map
            (registered s.defaultPeriod none (.rule rule.id)) := by
    unfold ruleRegistrations
    rw [registerAll_periodOr]
    cases rule.missionId with
    | none => rfl
    | some mission => simp [missionKeys, registerAll, registered]
  have hmission (m : Mission α) : s.missionRegistrations m =
      [.missionTotal m.id, .missionEligible m.id].map
        (registered s.defaultPeriod m.period (.mission m.id)) :=
    registerAll_periodOr ..
  have htier : tierRegistrations (α := α) = fun program =>
      [.tierReward program.id, .tierSpend program.id].map
        (registered .tier program.period (.tier program.id)) :=
    funext fun program => registerAll_periodOr ..
  have hwalk : s.registrations = walk := by
    unfold registrations
    rw [ruleOrder_eq, funext hrule, funext hmission, htier]
    rfl
  refine ⟨fun key => ?_, fun key entry => ?_, fun p q => ?_,
    fun rule key => RuleSpec.mem_namedKeys_iff⟩
  · rw [schedules_iff, hwalk]
  · rw [get?_schedule_iff, hwalk]
    rfl
  · cases p <;> cases q <;> decide

/-- Two rules that share a counter, of which a card lists the second, and a campaign that lists a
third rule. -/
def sharedCounter : Scheme Binary64 :=
  { Sample.single
      [(RuleSpec.flat "first" 1 ["dining"]).capped .spending "shared" 1,
        (RuleSpec.flat "second" 1 ["dining"]).capped .spending "shared" 1,
        (RuleSpec.flat "third" 1 ["dining"]).capped .reward "seasonal" 1] with
    cards := [.held "red" "cash" ["second"]]
    campaigns := [⟨"winter", none, ⟨.campaign, .calendar⟩, none, none, ["third"], []⟩] }

/-- Of two rules that share a counter the one holds that a card lists. A campaign goes before the
default of a rule. -/
theorem schedule_earliest_of_highest_shared :
    sharedCounter.schedule.get? "shared" = some ⟨.monthly, .rule "second", .fallback⟩ ∧
      sharedCounter.schedule.get? "seasonal" =
        some ⟨⟨.campaign, .calendar⟩, .campaign "winter", .promotion⟩ := by
  obtain ⟨-, hentry, -⟩ := schedule_earliest_of_highest sharedCounter
  constructor
  · refine (hentry (.configured "shared") _).mpr
      ⟨[], [⟨.configured "shared", .monthly, .rule "first", .fallback⟩,
        ⟨.configured "seasonal", .monthly, .rule "third", .fallback⟩,
        ⟨.configured "seasonal", ⟨.campaign, .calendar⟩, .campaign "winter", .promotion⟩], ?_⟩
    decide +kernel
  · refine (hentry (.configured "seasonal") _).mpr
      ⟨[⟨.configured "shared", .monthly, .rule "second", .fallback⟩,
        ⟨.configured "shared", .monthly, .rule "first", .fallback⟩,
        ⟨.configured "seasonal", .monthly, .rule "third", .fallback⟩], [], ?_⟩
    decide +kernel

end Scheme

end CardRewards
