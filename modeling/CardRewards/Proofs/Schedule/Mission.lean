import CardRewards.Proofs.CounterKey
import CardRewards.Proofs.Schedule.Priority
import CardRewards.Scheme.Sample

/-!
# When the counters of a mission are set back

A mission has two counters, of what is spent under it and of what counts for it. The mission itself
and the rules that count for it register both alike. But each of the two can be registered without
the other one as well: a rule that is gated by the mission names the counter that counts for it and
hands it the period of the rule, and a campaign may list one of them. So the two are set back
together only if nothing that is registered above a default singles one of them out.

The period of a counter of a mission is the first one that is given for it
(`Scheme.period_of_missionKey`): by a rule that names it, by the mission, then by a campaign. If
none is given, it is the default. Hence the two counters have the same period where the same periods
are given for them: `Scheme.mission_counters_reset_together`.
-/

namespace CardRewards

/-! ## The first period of a priority -/

namespace Registration

/-- The period of the first registration of a counter with a priority. -/
def firstPeriod? (registrations : List Registration) (key : CounterKey) (priority : Priority) :
    Option Period :=
  (registrations.find? fun r => r.key = key ∧ r.entry.priority = priority).map (·.entry.period)

variable {key : CounterKey} {entry : ScheduleEntry} {priority : Priority}
  {registrations : List Registration}

theorem firstPeriod?_append (first rest : List Registration) (key : CounterKey)
    (priority : Priority) :
    firstPeriod? (first ++ rest) key priority =
      (firstPeriod? first key priority).or (firstPeriod? rest key priority) := by
  unfold firstPeriod?
  rw [List.find?_append, Option.map_or]

theorem firstPeriod?_flatMap {β : Type} (f : β → List Registration) (l : List β)
    (key : CounterKey) (priority : Priority) :
    firstPeriod? (l.flatMap f) key priority =
      l.findSome? fun x => firstPeriod? (f x) key priority := by
  unfold firstPeriod?
  rw [List.find?_flatMap, List.map_findSome?]
  rfl

theorem firstPeriod?_registerAll (keys : List CounterKey) (period : Period × Priority)
    (provenance : Provenance) (key : CounterKey) (priority : Priority) :
    firstPeriod? (Scheme.registerAll keys period provenance) key priority =
      if key ∈ keys ∧ period.2 = priority then some period.1 else none := by
  unfold firstPeriod? Scheme.registerAll
  induction keys with
  | nil => simp
  | cons first rest ih =>
    rw [List.map_cons]
    by_cases hfirst : first = key ∧ period.2 = priority
    · rw [List.find?_cons_of_pos (by simpa using hfirst), if_pos ⟨by simp [hfirst.1], hfirst.2⟩]
      rfl
    · rw [List.find?_cons_of_neg (by simpa using hfirst), ih]
      refine if_congr ?_ rfl rfl
      rw [List.mem_cons]
      constructor
      · exact fun h => ⟨.inr h.1, h.2⟩
      · exact fun h => ⟨h.1.resolve_left fun heq => hfirst ⟨heq.symm, h.2⟩, h.2⟩

/-- What holds is the first registration of its priority, -/
theorem HoldsIn.firstPeriod?_eq (h : HoldsIn ⟨key, entry⟩ registrations) :
    firstPeriod? registrations key entry.priority = some entry.period := by
  obtain ⟨before, after, heq, hbefore, -⟩ := h
  have hfirst : registrations.find? (fun r => r.key = key ∧ r.entry.priority = entry.priority) =
      some ⟨key, entry⟩ := by
    refine List.find?_eq_some_iff_append.mpr ⟨by simp, before, after, heq, ?_⟩
    intro other hother
    have hlower := hbefore other hother
    simp only [Bool.not_eq_true', decide_eq_false_iff_not]
    intro hsame
    obtain ⟨hkey, hpriority⟩ := hsame
    rw [hpriority] at hlower
    exact Nat.lt_irrefl _ (hlower hkey)
  rw [firstPeriod?, hfirst]
  rfl

/-- and there is none of a higher one. -/
theorem HoldsIn.firstPeriod?_eq_none (h : HoldsIn ⟨key, entry⟩ registrations)
    (higher : entry.priority.height < priority.height) :
    firstPeriod? registrations key priority = none := by
  have hnone : registrations.find? (fun r => r.key = key ∧ r.entry.priority = priority) = none := by
    refine List.find?_eq_none.mpr fun other hother => ?_
    simp only [decide_eq_true_eq]
    intro hsame
    obtain ⟨hkey, rfl⟩ := hsame
    exact Nat.not_lt.mpr (h.height_le hother hkey) higher
  rw [firstPeriod?, hnone]
  rfl

end Registration

namespace Scheme

open Registration (firstPeriod?)

variable {α : Type} {s : Scheme α} {m : Mission α} {mission : String} {key : CounterKey}

/-! ## What is given for a counter of a mission -/

/-- The counters that a campaign registers: those that its rules name, and those that it lists. -/
def campaignKeys (s : Scheme α) (c : Campaign) : List CounterKey :=
  (c.ruleIds.filterMap s.rule?).flatMap (·.namedKeys) ++ c.keys.map .configured

/-- The periods that rules give for a counter that they name, then those that the definitions of a
mission give. -/
def ownPeriods (s : Scheme α) (mission : String) (key : CounterKey) : List Period :=
  (s.ruleOrder.filterMap fun rule => if key ∈ rule.namedKeys then rule.period else none) ++
    s.missions.filterMap fun m => if m.id = mission then m.period else none

/-- The periods of the campaigns that register a counter. -/
def campaignPeriods (s : Scheme α) (key : CounterKey) : List Period :=
  s.campaigns.filterMap fun c => if key ∈ s.campaignKeys c then some c.period else none

/-- The counters of a mission are those of no other one. -/
theorem mem_missionKeys_iff {other : String} (hkey : key ∈ missionKeys mission) :
    key ∈ missionKeys other ↔ other = mission := by
  constructor
  · intro hother
    simp only [missionKeys, List.mem_cons, List.not_mem_nil, or_false] at hkey hother
    rcases hkey with rfl | rfl <;> rcases hother with h | h
    · exact (CounterSort.key_inj_right (s := .missionTotal)).mp h.symm
    · exact absurd h <|
        CounterSort.key_ne (s := .missionTotal) (t := .missionEligible) (by decide) _ _
    · exact absurd h <|
        CounterSort.key_ne (s := .missionEligible) (t := .missionTotal) (by decide) _ _
    · exact (CounterSort.key_inj_right (s := .missionEligible)).mp h.symm
  · intro heq
    rw [heq]
    exact hkey

theorem text_ne_empty (hkey : key ∈ missionKeys mission) : key.text ≠ "" := by
  intro hempty
  have hlength := congrArg String.length hempty
  simp only [missionKeys, List.mem_cons, List.not_mem_nil, or_false] at hkey
  rcases hkey with rfl | rfl <;>
    simp [CounterKey.missionTotal, CounterKey.missionEligible] at hlength

/-- No counter of a mission is one of a tier program. -/
theorem not_mem_tierKeys (hkey : key ∈ missionKeys mission) (program : String) :
    key ∉ [CounterKey.tierReward program, .tierSpend program] := by
  simp only [missionKeys, List.mem_cons, List.not_mem_nil, or_false] at hkey ⊢
  intro hmem
  rcases hmem with h | h <;> rcases hkey with rfl | rfl
  · exact absurd h (CounterSort.key_ne (s := .missionTotal) (t := .tierReward) (by decide) _ _)
  · exact absurd h (CounterSort.key_ne (s := .missionEligible) (t := .tierReward) (by decide) _ _)
  · exact absurd h (CounterSort.key_ne (s := .missionTotal) (t := .tierSpend) (by decide) _ _)
  · exact absurd h (CounterSort.key_ne (s := .missionEligible) (t := .tierSpend) (by decide) _ _)

/-! ## Periods of one's own, and defaults -/

/-- Registrations give a counter some period of its own or leave it to a default. -/
structure Gives (registrations : List Registration) (key : CounterKey) (own : Option Period)
    (default : Period) : Prop where
  explicit : firstPeriod? registrations key .explicit = own
  promotion : firstPeriod? registrations key .promotion = none
  fallback : ∀ p, firstPeriod? registrations key .fallback = some p → p = default

theorem gives_registerAll (keys : List CounterKey) (default : Period) (given : Option Period)
    (provenance : Provenance) (key : CounterKey) :
    Gives (registerAll keys (periodOr default given) provenance) key
      (if key ∈ keys then given else none) default := by
  cases given with
  | none =>
    refine ⟨?_, ?_, fun p => ?_⟩ <;>
      simp only [Registration.firstPeriod?_registerAll, periodOr] <;>
      by_cases hkey : key ∈ keys <;> simp [hkey, eq_comm]
  | some period =>
    refine ⟨?_, ?_, fun p => ?_⟩ <;>
      simp only [Registration.firstPeriod?_registerAll, periodOr] <;>
      by_cases hkey : key ∈ keys <;> simp [hkey]

/-- Of two periods that are given one after the other the first one counts. -/
theorem Gives.append {first rest : List Registration} {own own' : Option Period} {default : Period}
    (h : Gives first key own default) (hrest : Gives rest key own' default) :
    Gives (first ++ rest) key (own.or own') default where
  explicit := by rw [Registration.firstPeriod?_append, h.explicit, hrest.explicit]
  promotion := by
    rw [Registration.firstPeriod?_append, h.promotion, hrest.promotion, Option.or_none]
  fallback p hp := by
    rw [Registration.firstPeriod?_append, Option.or_eq_some_iff] at hp
    rcases hp with hp | ⟨-, hp⟩
    · exact h.fallback p hp
    · exact hrest.fallback p hp

theorem Gives.flatMap {β : Type} {f : β → List Registration} {own : β → Option Period}
    {default : Period} (h : ∀ x, Gives (f x) key (own x) default) :
    ∀ l : List β, Gives (l.flatMap f) key (l.findSome? own) default
  | [] => ⟨rfl, rfl, nofun⟩
  | x :: rest => by
    have hall := (h x).append (Gives.flatMap h rest)
    rw [List.flatMap_cons, List.findSome?_cons]
    cases hx : own x with
    | none => rwa [hx, Option.none_or] at hall
    | some period => rwa [hx, Option.some_or] at hall

/-- A rule gives its period to the counters that it names, and to no others. -/
theorem gives_ruleRegistrations (s : Scheme α) (key : CounterKey) (rule : RuleSpec α) :
    Gives (s.ruleRegistrations rule) key (if key ∈ rule.namedKeys then rule.period else none)
      s.defaultPeriod := by
  have hnamed := gives_registerAll rule.namedKeys s.defaultPeriod rule.period (.rule rule.id) key
  rw [← Option.or_none (o := if key ∈ rule.namedKeys then rule.period else none)]
  refine hnamed.append ?_
  cases rule.missionId with
  | none => exact ⟨rfl, rfl, nofun⟩
  | some observed =>
    have h := gives_registerAll (missionKeys observed) s.defaultPeriod none (.rule rule.id) key
    rwa [ite_self] at h

/-- A mission gives its period to its own counters. -/
theorem gives_missionRegistrations (s : Scheme α) (hkey : key ∈ missionKeys mission)
    (m : Mission α) :
    Gives (s.missionRegistrations m) key (if m.id = mission then m.period else none)
      s.defaultPeriod := by
  have h := gives_registerAll (missionKeys m.id) s.defaultPeriod m.period (.mission m.id) key
  simp only [mem_missionKeys_iff hkey] at h
  exact h

/-- The rules and the missions give the counters of a mission these periods. -/
theorem gives_ownPeriods (s : Scheme α) (hkey : key ∈ missionKeys mission) :
    Gives (s.ruleOrder.flatMap s.ruleRegistrations ++ s.missions.flatMap s.missionRegistrations) key
      (s.ownPeriods mission key).head? s.defaultPeriod := by
  rw [ownPeriods, List.head?_append, List.head?_filterMap, List.head?_filterMap]
  exact (Gives.flatMap (gives_ruleRegistrations s key) s.ruleOrder).append
    (Gives.flatMap (gives_missionRegistrations s hkey) s.missions)

/-- Campaigns register everything with their own priority. -/
theorem firstPeriod?_campaigns (s : Scheme α) (key : CounterKey) (priority : Priority) :
    firstPeriod? (s.campaigns.flatMap s.campaignRegistrations) key priority =
      if priority = .promotion then (s.campaignPeriods key).head? else none := by
  have hone (c : Campaign) : firstPeriod? (s.campaignRegistrations c) key priority =
      if key ∈ s.campaignKeys c ∧ .promotion = priority then some c.period else none :=
    Registration.firstPeriod?_registerAll ..
  rw [Registration.firstPeriod?_flatMap, campaignPeriods, List.head?_filterMap, funext hone]
  by_cases hpriority : priority = .promotion
  · simp [hpriority]
  · rw [if_neg hpriority]
    exact List.findSome?_eq_none_iff.mpr fun c _ => if_neg fun h => hpriority h.2.symm

/-- The first period that is registered for a counter of a mission comes from the rules and
missions, or else from the campaigns. -/
theorem firstPeriod?_registrations (s : Scheme α) (hkey : key ∈ missionKeys mission)
    (priority : Priority) :
    firstPeriod? s.registrations key priority =
      (firstPeriod? (s.ruleOrder.flatMap s.ruleRegistrations ++
          s.missions.flatMap s.missionRegistrations) key priority).or
        (if priority = .promotion then (s.campaignPeriods key).head? else none) := by
  have htier :
      firstPeriod? (s.tierProgram.toList.flatMap tierRegistrations) key priority = none := by
    rw [Registration.firstPeriod?_flatMap]
    refine List.findSome?_eq_none_iff.mpr fun program _ => ?_
    rw [tierRegistrations, Registration.firstPeriod?_registerAll,
      if_neg fun h => not_mem_tierKeys hkey program.id h.1]
  rw [registrations, Registration.firstPeriod?_append, htier, Option.or_none,
    Registration.firstPeriod?_append, firstPeriod?_campaigns]

/-! ## The period of a counter -/

/-- **The period of a counter of a mission** is the first that rules which name it give, or else the
mission, or else a campaign, and if none is given the default. -/
theorem period_of_missionKey (hm : m ∈ s.missions) (hkey : key ∈ missionKeys m.id) :
    ∃ entry, s.schedule.get? key.text = some entry ∧
      entry.period = (s.ownPeriods m.id key ++ s.campaignPeriods key).headD s.defaultPeriod := by
  have hscheduled : s.Schedules key := by
    obtain ⟨r, hr, rfl⟩ := exists_mem_registerAll hkey (periodOr s.defaultPeriod m.period)
      (.mission m.id)
    refine schedules_iff.mpr ⟨r, ?_, rfl⟩
    refine List.mem_append_left _ (List.mem_append_left _ (List.mem_append_right _ ?_))
    exact List.mem_flatMap.mpr ⟨m, hm, hr⟩
  obtain ⟨entry, hentry⟩ := Option.isSome_iff_exists.mp hscheduled
  refine ⟨entry, hentry, ?_⟩
  have holds := get?_schedule_iff.mp hentry
  have hfirst := holds.firstPeriod?_eq
  have hgives := gives_ownPeriods s hkey
  have hexplicit : firstPeriod? s.registrations key .explicit = (s.ownPeriods m.id key).head? := by
    rw [firstPeriod?_registrations s hkey, hgives.explicit]
    exact Option.or_none
  have hpromotion :
      firstPeriod? s.registrations key .promotion = (s.campaignPeriods key).head? := by
    rw [firstPeriod?_registrations s hkey, hgives.promotion]
    rfl
  rw [List.headD_eq_head?_getD, List.head?_append, ← hexplicit, ← hpromotion]
  cases hpriority : entry.priority with
  | explicit =>
    rw [hpriority] at hfirst
    rw [hfirst]
    rfl
  | promotion =>
    rw [hpriority] at hfirst
    rw [holds.firstPeriod?_eq_none (by rw [hpriority]; decide), hfirst]
    rfl
  | fallback =>
    -- nothing is registered above the defaults
    rw [hpriority, firstPeriod?_registrations s hkey] at hfirst
    rw [holds.firstPeriod?_eq_none (by rw [hpriority]; decide),
      holds.firstPeriod?_eq_none (by rw [hpriority]; decide)]
    exact hgives.fallback entry.period (Option.or_none.symm.trans hfirst)

/-- A campaign lends its period to a counter that it lists, and to the caps of the rules that it
lists. -/
def LendsTo (s : Scheme α) (c : Campaign) (key : CounterKey) : Prop :=
  key.text ∈ c.keys ∨ ∃ rule ∈ c.ruleIds.filterMap s.rule?,
    rule.capKey = some key.text ∨ rule.secondaryCapKey = some key.text

instance (s : Scheme α) (c : Campaign) (key : CounterKey) : Decidable (s.LendsTo c key) :=
  inferInstanceAs (Decidable (_ ∨ _))

/-- The periods that campaigns lend to a counter. -/
def lentPeriods (s : Scheme α) (key : CounterKey) : List Period :=
  s.campaigns.filterMap fun c => if s.LendsTo c key then some c.period else none

/-- A campaign lists a rule that is gated by a counter. -/
def ListsGated (s : Scheme α) (c : Campaign) (key : CounterKey) : Prop :=
  ∃ rule ∈ c.ruleIds.filterMap s.rule?,
    rule.reqMissionKey.map .configured = some key ∨
      rule.reqMissionId.map .missionEligible = some key

instance (s : Scheme α) (c : Campaign) (key : CounterKey) : Decidable (s.ListsGated c key) :=
  inferInstanceAs (Decidable (∃ rule ∈ _, _))

/-- A rule names a counter that it is not gated by only if it has a cap on it. -/
theorem mem_namedKeys_iff_cap {rule : RuleSpec α} (hne : key.text ≠ "")
    (ungated : ¬ (rule.reqMissionKey.map .configured = some key ∨
      rule.reqMissionId.map .missionEligible = some key)) :
    key ∈ rule.namedKeys ↔
      rule.capKey = some key.text ∨ rule.secondaryCapKey = some key.text := by
  obtain ⟨hwritten, hmission⟩ := not_or.mp ungated
  rw [RuleSpec.mem_namedKeys_iff]
  constructor
  · intro h
    rcases h with ⟨text, -, rfl, hcap | hcap | hgate⟩ | ⟨mission, -, rfl, hgate⟩
    · exact .inl hcap
    · exact .inr hcap
    · exact absurd (by rw [hgate]; rfl) hwritten
    · exact absurd (by rw [hgate]; rfl) hmission
  · intro hcap
    exact .inl ⟨key.text, hne, rfl, hcap.imp_right .inl⟩

/-- A campaign without such rules registers just the counters of the mission that it lends its
period to. -/
theorem mem_campaignKeys_iff_lendsTo {c : Campaign} (hkey : key ∈ missionKeys mission)
    (ungated : ¬ s.ListsGated c key) : key ∈ s.campaignKeys c ↔ s.LendsTo c key := by
  have hcap : ∀ rule ∈ c.ruleIds.filterMap s.rule?, key ∈ rule.namedKeys ↔
      rule.capKey = some key.text ∨ rule.secondaryCapKey = some key.text :=
    fun rule hrule => mem_namedKeys_iff_cap (text_ne_empty hkey) fun hgate =>
      ungated ⟨rule, hrule, hgate⟩
  have hlisted : key ∈ c.keys.map CounterKey.configured ↔ key.text ∈ c.keys := by
    rw [List.mem_map]
    constructor
    · intro hmem
      obtain ⟨text, htext, rfl⟩ := hmem
      exact htext
    · intro htext
      exact ⟨key.text, htext, rfl⟩
  rw [campaignKeys, List.mem_append, List.mem_flatMap, hlisted, LendsTo, or_comm]
  refine or_congr Iff.rfl (exists_congr fun rule => ?_)
  exact and_congr_right (hcap rule)

/-- Counters that the same rules with a period of their own name are given the same periods. -/
theorem ownPeriods_eq {other : CounterKey} (mission : String)
    (h : ∀ rule ∈ s.rules, s.rule? rule.id = some rule → rule.period ≠ none →
      (key ∈ rule.namedKeys ↔ other ∈ rule.namedKeys)) :
    s.ownPeriods mission key = s.ownPeriods mission other := by
  unfold ownPeriods
  refine congrArg (· ++ _) (List.filterMap_congr fun rule hrule => ?_)
  cases hperiod : rule.period with
  | none => rw [ite_self, ite_self]
  | some period =>
    have hspec := mem_ruleOrder.mp hrule
    have hnamed := h rule (of_rule? hspec).1 hspec (by rw [hperiod]; nofun)
    simp only [hnamed]

/-- A definition of a mission with a period gives that period to the counters of the mission. -/
theorem ownPeriods_ne_nil {m' : Mission α} (hm' : m' ∈ s.missions) (hid : m'.id = mission)
    (hperiod : m'.period ≠ none) (key : CounterKey) : s.ownPeriods mission key ≠ [] := by
  obtain ⟨period, hsome⟩ := Option.ne_none_iff_exists'.mp hperiod
  have hmem : period ∈ s.ownPeriods mission key := by
    refine List.mem_append_right _ (List.mem_filterMap.mpr ⟨m', hm', ?_⟩)
    rw [if_pos hid, hsome]
  exact List.ne_nil_of_mem hmem

/-- Where no campaign lists a rule that is gated by a counter of a mission, campaigns give it just
what they lend. -/
theorem campaignPeriods_eq_lentPeriods (hkey : key ∈ missionKeys mission)
    (ungated : ∀ c ∈ s.campaigns, ¬ s.ListsGated c key) :
    s.campaignPeriods key = s.lentPeriods key := by
  unfold campaignPeriods lentPeriods
  refine List.filterMap_congr fun c hc => ?_
  simp only [mem_campaignKeys_iff_lendsTo hkey (ungated c hc)]

/-- **The counters of a mission are set back together unless one of them is singled out.** Both have
an entry. The entries have the same period if every rule with a period that names one of the two
counters names the other one as well, and if moreover the mission has a period itself or every
campaign that registers one of them registers the other one as well. The period of either counter is
the first that the rules which name it give, or else the mission; where there is none, and no
campaign lists a rule that is gated by the counter, it is the period of the first campaign that lists
the counter or a rule with a cap on it, or else the default. -/
theorem mission_counters_reset_together (s : Scheme α) (hm : m ∈ s.missions) :
    let total := CounterKey.missionTotal m.id
    let eligible := CounterKey.missionEligible m.id
    ∃ t e, s.schedule.get? total.text = some t ∧ s.schedule.get? eligible.text = some e ∧
      ((∀ rule ∈ s.rules, s.rule? rule.id = some rule → rule.period ≠ none →
          (total ∈ rule.namedKeys ↔ eligible ∈ rule.namedKeys)) →
        ((∃ m' ∈ s.missions, m'.id = m.id ∧ m'.period ≠ none) ∨
          ∀ c ∈ s.campaigns, total ∈ s.campaignKeys c ↔ eligible ∈ s.campaignKeys c) →
        t.period = e.period) ∧
      ∀ key entry, (key, entry) ∈ [(total, t), (eligible, e)] →
        (s.ownPeriods m.id key ≠ [] ∨ ∀ c ∈ s.campaigns, ¬ s.ListsGated c key) →
        entry.period = (s.ownPeriods m.id key ++ s.lentPeriods key).headD s.defaultPeriod := by
  intro total eligible
  have htotal : total ∈ missionKeys m.id := by simp [missionKeys, total]
  have heligible : eligible ∈ missionKeys m.id := by simp [missionKeys, eligible]
  obtain ⟨t, ht, htperiod⟩ := period_of_missionKey hm htotal
  obtain ⟨e, he, heperiod⟩ := period_of_missionKey hm heligible
  refine ⟨t, e, ht, he, fun hrules hothers => ?_, fun key entry hentry hungated => ?_⟩
  · rw [htperiod, heperiod, ownPeriods_eq m.id hrules]
    rcases hothers with ⟨m', hm', hid, hperiod⟩ | hcampaigns
    · -- the mission gives a period, which goes before those of campaigns
      have hne := ownPeriods_ne_nil hm' hid hperiod eligible
      obtain ⟨first, rest, hperiods⟩ := List.exists_cons_of_ne_nil hne
      rw [hperiods]
      rfl
    · have hsame : s.campaignPeriods total = s.campaignPeriods eligible :=
        List.filterMap_congr fun c hc => by simp only [hcampaigns c hc]
      rw [hsame]
  · have hboth : key ∈ missionKeys m.id ∧
        entry.period = (s.ownPeriods m.id key ++ s.campaignPeriods key).headD s.defaultPeriod := by
      simp only [List.mem_cons, Prod.mk.injEq, List.not_mem_nil, or_false] at hentry
      rcases hentry with ⟨rfl, rfl⟩ | ⟨rfl, rfl⟩
      · exact ⟨htotal, htperiod⟩
      · exact ⟨heligible, heperiod⟩
    obtain ⟨hkey, hperiod⟩ := hboth
    rw [hperiod]
    cases hperiods : s.ownPeriods m.id key with
    | cons first rest => rfl
    | nil =>
      have hlists := hungated.resolve_left fun hne => hne hperiods
      rw [campaignPeriods_eq_lentPeriods hkey hlists]

/-- Two missions that a rule is gated by. The rule that is gated by the first one has a period; the
rule that is gated by the second one is listed by a campaign, and the mission has a period itself. -/
def gatedMissions : Scheme Binary64 :=
  { Sample.single
      [{ (RuleSpec.flat "early" 1 ["travel"]).gatedByMission "open" 1 with
          period := some ⟨.quarterly, .statementDay 15⟩ },
        (RuleSpec.flat "late" 1 ["travel"]).gatedByMission "fixed" 1] with
    missions := [⟨"open", none, none, none⟩, ⟨"fixed", none, none, some ⟨.yearly, .calendar⟩⟩]
    campaigns := [⟨"winter", none, ⟨.campaign, .calendar⟩, none, none, ["late"], []⟩] }

/-- The counters of the second mission are set back together, by the mission and not by the campaign.
Of the first one only the counter that the rule names has the period of the rule. -/
theorem mission_counters_reset_together_gated :
    let s := gatedMissions
    let entry? (key : CounterKey) := s.schedule.get? key.text
    (∃ t e, entry? (.missionTotal "fixed") = some t ∧ entry? (.missionEligible "fixed") = some e ∧
      t.period = e.period ∧ e.period = ⟨.yearly, .calendar⟩) ∧
    ∃ t e, entry? (.missionTotal "open") = some t ∧ entry? (.missionEligible "open") = some e ∧
      t.period = .monthly ∧ e.period = ⟨.quarterly, .statementDay 15⟩ := by
  intro s entry?
  have hfixed : (⟨"fixed", none, none, some ⟨.yearly, .calendar⟩⟩ : Mission Binary64) ∈ s.missions :=
    List.mem_cons_of_mem _ (List.mem_singleton_self _)
  have hopen : (⟨"open", none, none, none⟩ : Mission Binary64) ∈ s.missions :=
    List.mem_cons_self ..
  obtain ⟨t, e, ht, he, htogether, hperiod⟩ := mission_counters_reset_together s hfixed
  obtain ⟨t', e', ht', he', -, hperiod'⟩ := mission_counters_reset_together s hopen
  have hrules : ∀ rule ∈ s.rules, s.rule? rule.id = some rule → rule.period ≠ none →
      (CounterKey.missionTotal "fixed" ∈ rule.namedKeys ↔
        CounterKey.missionEligible "fixed" ∈ rule.namedKeys) := by
    decide +kernel
  refine ⟨⟨t, e, ht, he, htogether hrules (.inl ⟨_, hfixed, rfl, nofun⟩), ?_⟩,
    t', e', ht', he', ?_, ?_⟩
  · refine (hperiod (.missionEligible "fixed") e (by simp) (.inl (by decide +kernel))).trans ?_
    decide +kernel
  · refine (hperiod' (.missionTotal "open") t' (by simp) (.inr (by decide +kernel))).trans ?_
    decide +kernel
  · refine (hperiod' (.missionEligible "open") e' (by simp) (.inl (by decide +kernel))).trans ?_
    decide +kernel

/-- The counters of a mission need not be set back together: the rule that is gated by the first
mission hands its period to what counts for the mission, and not to what is spent under it. -/
theorem mission_counters_apart :
    ∃ m ∈ gatedMissions.missions, ∃ t e,
      gatedMissions.schedule.get? (CounterKey.missionTotal m.id).text = some t ∧
      gatedMissions.schedule.get? (CounterKey.missionEligible m.id).text = some e ∧
      t.period ≠ e.period :=
  ⟨⟨"open", none, none, none⟩, List.mem_cons_self ..,
    ⟨.monthly, .mission "open", .fallback⟩,
    ⟨⟨.quarterly, .statementDay 15⟩, .rule "early", .explicit⟩,
    by decide +kernel, by decide +kernel, by decide⟩

end Scheme

end CardRewards
