import CardRewards.Proofs.Quote.Counters
import CardRewards.Proofs.Quote.Reads
import CardRewards.Proofs.Rule.Lookup

/-!
# The schedule covers the ledger

A counter that is used and is not in the schedule would never be set back to zero. The schedule is
made from the rules as they are written, while a quote reads and charges the counters of the checked
rules; so the two derivations have to come to the same keys.

The schedule has an entry for a counter exactly if something in the scheme registers it
(`Scheme.schedules_iff`), and every rule that a look-up finds registers the counters it names and
those of the mission it counts for (`Scheme.mem_ruleOrder`). Where the ids of the rules are
distinct, the checked rules restate just these, and the schedule covers all that a quote reads or
charges except what is spent on the card itself: `RuleBook.schedule_covers_quote`.
-/

namespace CardRewards

namespace Schedule

/-- A registration adds its counter and keeps the others. -/
theorem contains_register (s : Schedule) (r : Registration) (key : String) :
    (s.register r).contains key = true ↔ key = r.key.text ∨ s.contains key = true := by
  have hinsert : (s.insert r.key.text r.entry).contains key = true ↔
      key = r.key.text ∨ s.contains key = true := by
    simp only [Dict.contains, Dict.get?_insert]
    by_cases hkey : key = r.key.text <;> simp [hkey]
  unfold register
  split
  next held hheld =>
    split
    next => exact hinsert
    next =>
      -- the counter is there already, with an entry that holds against this one
      refine ⟨.inr, fun h => h.elim (fun hkey => ?_) id⟩
      rw [hkey, Dict.contains, hheld]
      rfl
  next => exact hinsert

/-- Registrations one after another add their counters. -/
theorem contains_foldl_register (registrations : List Registration) (key : String) :
    ∀ s : Schedule, (registrations.foldl register s).contains key = true ↔
      s.contains key = true ∨ ∃ r ∈ registrations, r.key.text = key := by
  induction registrations with
  | nil => simp
  | cons r rest ih =>
    intro s
    rw [List.foldl_cons, ih, contains_register]
    simp only [List.mem_cons, exists_eq_or_imp, eq_comm (a := key)]
    rw [or_comm (a := r.key.text = key), or_assoc]

end Schedule

namespace RuleSpec

variable {α : Type} {spec : RuleSpec α}

/-- A rule names the counters that are written in it, if they are not empty. -/
theorem mem_namedKeys_of_written {key : Option String} {named : CounterKey}
    (hkey : key ∈ [spec.capKey, spec.secondaryCapKey, spec.reqMissionKey])
    (hnamed : (key.bind Text.nonempty?).map .configured = some named) : named ∈ spec.namedKeys :=
  List.mem_append_left _ (List.mem_filterMap.mpr ⟨key, hkey, hnamed⟩)

/-- The counter of a mission gate is one that the rule names. -/
theorem gate_mem_namedKeys [Amount α] {key : CounterKey} (h : spec.gateKey = .ok (some key)) :
    key ∈ spec.namedKeys := by
  unfold gateKey at h
  split at h
  next => exact nomatch h
  next mission hmission _ =>
    obtain rfl := Option.some.inj (Except.ok.inj h)
    refine List.mem_append_right _ ?_
    rw [hmission]
    exact List.mem_singleton_self _
  next text _ htext =>
    obtain rfl := Option.some.inj (Except.ok.inj h)
    exact mem_namedKeys_of_written (by simp) (congrArg _ htext)
  next => exact nomatch Except.ok.inj h

/-- The counters of a cap are ones that the rule names. -/
theorem cap_mem_namedKeys [Amount α] {cap : Cap α} (h : cap.Written spec) :
    cap.key ∈ spec.namedKeys ∧
      ∀ second, cap.secondary = some second → second.key ∈ spec.namedKeys := by
  refine ⟨mem_namedKeys_of_written (by simp) h.key, fun second hsecond => ?_⟩
  refine mem_namedKeys_of_written (by simp) (h.secondaryKey.trans ?_)
  rw [hsecond]
  rfl

end RuleSpec

namespace Scheme

variable {α : Type} {s : Scheme α} {spec : RuleSpec α} {key : CounterKey}

/-- The schedule has an entry for a counter. -/
def Schedules (s : Scheme α) (key : CounterKey) : Prop := s.schedule.contains key.text = true

instance (s : Scheme α) (key : CounterKey) : Decidable (s.Schedules key) :=
  inferInstanceAs (Decidable (s.schedule.contains key.text = true))

/-- The schedule has an entry for a counter exactly if something in the scheme registers it. -/
theorem schedules_iff : s.Schedules key ↔ ∃ r ∈ s.registrations, r.key = key := by
  unfold Schedules schedule
  rw [Schedule.contains_foldl_register]
  constructor
  · rintro (hempty | ⟨r, hr, htext⟩)
    · exact nomatch hempty
    · exact ⟨r, hr, congrArg CounterKey.mk htext⟩
  · rintro ⟨r, hr, rfl⟩
    exact .inr ⟨r, hr, rfl⟩

theorem exists_mem_registerAll {keys : List CounterKey} (h : key ∈ keys)
    (period : Period × Priority) (provenance : Provenance) :
    ∃ r ∈ registerAll keys period provenance, r.key = key :=
  ⟨_, List.mem_map.mpr ⟨key, h, rfl⟩, rfl⟩

/-- Of a list, those rules are first that the list has first under their id, unless the id has been
seen before. -/
theorem mem_firstById {rules : List (RuleSpec α)} :
    ∀ {seen : List String}, spec ∈ firstById seen rules ↔
      spec.id ∉ seen ∧ rules.find? (·.id = spec.id) = some spec := by
  induction rules with
  | nil => simp [firstById]
  | cons r rest ih =>
    intro seen
    unfold firstById
    by_cases hseen : r.id ∈ seen
    · rw [if_pos (by simpa using hseen), ih]
      refine and_congr_right fun hnew => ?_
      have hne : r.id ≠ spec.id := fun heq => hnew (heq ▸ hseen)
      rw [List.find?_cons_of_neg (by simpa using hne)]
    · rw [if_neg (by simpa using hseen), List.mem_cons, ih]
      by_cases hid : r.id = spec.id
      · rw [List.find?_cons_of_pos (by simpa using hid)]
        constructor
        · rintro (rfl | ⟨hnew, -⟩)
          · exact ⟨hseen, rfl⟩
          · exact absurd (hid ▸ List.mem_cons_self ..) hnew
        · rintro ⟨-, hsame⟩
          exact .inl (Option.some.inj hsame).symm
      · rw [List.find?_cons_of_neg (by simpa using hid), List.mem_cons, not_or]
        constructor
        · rintro (rfl | ⟨⟨-, hnew⟩, hfound⟩)
          · exact absurd rfl hid
          · exact ⟨hnew, hfound⟩
        · rintro ⟨hnew, hfound⟩
          exact .inr ⟨⟨fun heq => hid heq.symm, hnew⟩, hfound⟩

/-- The rules that register counters are those that a look-up finds. -/
theorem mem_ruleOrder : spec ∈ s.ruleOrder ↔ s.rule? spec.id = some spec := by
  rw [ruleOrder, mem_firstById, List.find?_append]
  simp only [List.not_mem_nil, not_false_eq_true, true_and]
  -- a rule listed by a card is found by a look-up, so it is the one that is found under its id
  cases hlisted : ((s.cards.flatMap (·.rules)).filterMap s.rule?).find? (·.id = spec.id) with
  | none => rfl
  | some listed =>
    obtain ⟨id, -, hid⟩ := List.mem_filterMap.mp (List.mem_of_find?_eq_some hlisted)
    have hsame : listed.id = spec.id := by simpa using List.find?_some hlisted
    rw [← (of_rule? hid).2, hsame] at hid
    rw [hid]
    rfl

/-- A rule that a look-up finds has the counters it registers in the schedule. -/
theorem schedules_of_mem_ruleRegistrations {r : Registration} (hspec : s.rule? spec.id = some spec)
    (hr : r ∈ s.ruleRegistrations spec) : s.Schedules r.key := by
  refine schedules_iff.mpr ⟨r, ?_, rfl⟩
  refine List.mem_append_left _ (List.mem_append_left _ (List.mem_append_left _ ?_))
  exact List.mem_flatMap.mpr ⟨spec, mem_ruleOrder.mpr hspec, hr⟩

theorem schedules_of_mem_namedKeys (hspec : s.rule? spec.id = some spec)
    (hkey : key ∈ spec.namedKeys) : s.Schedules key := by
  obtain ⟨r, hr, rfl⟩ := exists_mem_registerAll hkey (periodOr s.defaultPeriod spec.period)
    (.rule spec.id)
  exact schedules_of_mem_ruleRegistrations hspec (List.mem_append_left _ hr)

theorem schedules_of_mem_missionKeys {mission : String} (hspec : s.rule? spec.id = some spec)
    (hmission : spec.missionId = some mission) (hkey : key ∈ missionKeys mission) :
    s.Schedules key := by
  obtain ⟨r, hr, rfl⟩ := exists_mem_registerAll hkey (s.defaultPeriod, .fallback) (.rule spec.id)
  refine schedules_of_mem_ruleRegistrations hspec (List.mem_append_right _ ?_)
  rw [hmission]
  exact hr

theorem schedules_of_tierProgram {program : TierProgram α} (hprogram : s.tierProgram = some program)
    (hkey : key ∈ [.tierReward program.id, .tierSpend program.id]) : s.Schedules key := by
  obtain ⟨r, hr, rfl⟩ := exists_mem_registerAll hkey (periodOr .tier program.period)
    (.tier program.id)
  have hmem : program ∈ s.tierProgram.toList := Option.mem_toList.mpr hprogram
  exact schedules_iff.mpr
    ⟨r, List.mem_append_right _ (List.mem_flatMap.mpr ⟨program, hmem, hr⟩), rfl⟩

end Scheme

namespace RuleBook

variable {α : Type} [Amount α] {scheme : Scheme α} {card : Card} {r : Rule α} {key : CounterKey}

/-- Where ids are distinct, a rule of a card restates the specification that a look-up finds. -/
theorem restates_of_mem_rulesOf (distinct : (scheme.rules.map (·.id)).Nodup)
    (hr : r ∈ (ofScheme scheme).rulesOf card) :
    ∃ spec, scheme.rule? spec.id = some spec ∧ r.Restates (conflictsOf scheme) spec := by
  obtain ⟨id, -, hrule⟩ := mem_rulesOf_iff_rule?.mp hr
  obtain ⟨spec, hspec, hrestates⟩ := restates_of_rule? hrule
  rw [Scheme.lastRule?_eq_rule? (Scheme.definesOnce_of_nodup distinct id)] at hspec
  refine ⟨spec, ?_, hrestates⟩
  rw [(Scheme.of_rule? hspec).2]
  exact hspec

/-- What a rule of a card reads is in the schedule. -/
theorem schedules_of_mem_readKeys (distinct : (scheme.rules.map (·.id)).Nodup)
    (hr : r ∈ (ofScheme scheme).rulesOf card) (hkey : key ∈ r.readKeys) : scheme.Schedules key := by
  obtain ⟨spec, hspec, hrestates⟩ := restates_of_mem_rulesOf distinct hr
  refine Scheme.schedules_of_mem_namedKeys hspec ?_
  rcases Rule.mem_readKeys hkey with ⟨gate, hgate, rfl⟩ | ⟨cap, hcap, hcases⟩
  · exact RuleSpec.gate_mem_namedKeys (hrestates.gateKey_of_mission hgate)
  · obtain ⟨hprimary, hsecondary⟩ := RuleSpec.cap_mem_namedKeys (hrestates.written_of_cap? hcap)
    rcases hcases with rfl | ⟨second, hsecond, rfl⟩
    · exact hprimary
    · exact hsecondary second hsecond

/-- What a quote of a card reads is in the schedule. -/
theorem schedules_of_mem_readKeysOf (distinct : (scheme.rules.map (·.id)).Nodup)
    (hkey : key ∈ (ofScheme scheme).readKeysOf card) : scheme.Schedules key := by
  rcases List.mem_append.mp hkey with hkey | hkey
  · obtain ⟨r, hr, hkey⟩ := List.mem_flatMap.mp hkey
    exact schedules_of_mem_readKeys distinct hr hkey
  · obtain ⟨program, hprogram, rfl⟩ := List.mem_map.mp hkey
    exact Scheme.schedules_of_tierProgram (Option.mem_toList.mp hprogram) (by simp)

/-- The missions that a card observes have their counters in the schedule. -/
theorem schedules_of_mem_missionKeysOf (distinct : (scheme.rules.map (·.id)).Nodup)
    (hkey : key ∈ (ofScheme scheme).missionKeysOf card) : scheme.Schedules key := by
  obtain ⟨mission, hmission, hkey⟩ := List.mem_flatMap.mp hkey
  obtain ⟨r, hr, hobserved⟩ := List.mem_filterMap.mp (List.mem_dedup.mp hmission)
  obtain ⟨spec, hspec, hrestates⟩ := restates_of_mem_rulesOf distinct hr
  refine Scheme.schedules_of_mem_missionKeys hspec ?_ hkey
  exact (Text.bind_nonempty?_eq_some_iff.mp (hrestates.missionId_of_observed? hobserved)).1

variable {amount : α} {rawCategory : String} {mode : DisplayMode} {ledger : Ledger α}
  {settings : Settings}

/-- What booking a quote charges is in the schedule, but for what is spent on the card. -/
theorem schedules_of_mem_charges (distinct : (scheme.rules.map (·.id)).Nodup) {charge : Charge α}
    (h : charge ∈ ((ofScheme scheme).quote card amount rawCategory mode ledger settings).charges) :
    charge.key = .cardSpend card.id ∨ scheme.Schedules charge.key := by
  rcases key_of_mem_charges h with hcap | hgenerated
  · obtain ⟨r, hr, hkey⟩ := List.mem_flatMap.mp hcap
    exact .inr (schedules_of_mem_readKeys distinct hr (List.mem_append_right _ hkey))
  · rcases List.mem_append.mp hgenerated with hfixed | hmission
    · rcases List.mem_cons.mp hfixed with hcard | htier
      · exact .inl hcard
      · obtain ⟨program, hprogram, hkey⟩ := List.mem_flatMap.mp htier
        exact .inr (Scheme.schedules_of_tierProgram (Option.mem_toList.mp hprogram) hkey)
    · exact .inr (schedules_of_mem_missionKeysOf distinct hmission)

/-- **The schedule covers the ledger.** Where the ids of the rules are distinct, the schedule has an
entry for every counter that a quote of a card reads, so that the quote depends on nothing else in
the ledger; and for every counter that booking the quote writes, other than that of the card, so
that booking leaves all the others as they were. -/
theorem schedule_covers_quote (distinct : (scheme.rules.map (·.id)).Nodup) (card : Card)
    (amount : α) (rawCategory : String) (mode : DisplayMode) (settings : Settings) :
    let b := ofScheme scheme
    let quote (l : Ledger α) := b.quote card amount rawCategory mode l settings
    (∀ key ∈ b.readKeysOf card, scheme.Schedules key) ∧
    (∀ l l' : Ledger α, (∀ key, scheme.Schedules key → l.get key = l'.get key) →
      quote l = quote l') ∧
    ∀ (l : Ledger α) (p : Profile α),
      (∀ key ∈ (p.receipt (quote l)).updated.map Prod.fst,
        key = .cardSpend card.id ∨ scheme.Schedules key) ∧
      ∀ key, key ≠ .cardSpend card.id → ¬ scheme.Schedules key →
        (p.book (quote l)).ledger.get key = p.ledger.get key ∧
          (p.book (quote l)).ledger.contains key = p.ledger.contains key := by
  intro b quote
  have hread : ∀ key ∈ b.readKeysOf card, scheme.Schedules key :=
    fun key hkey => schedules_of_mem_readKeysOf distinct hkey
  have hwritten : ∀ l : Ledger α, ∀ key ∈ (quote l).charges.map (·.key),
      key = .cardSpend card.id ∨ scheme.Schedules key := by
    intro l key hkey
    obtain ⟨charge, hcharge, rfl⟩ := List.mem_map.mp hkey
    exact schedules_of_mem_charges distinct hcharge
  refine ⟨hread, fun l l' agree => ?_, fun l p => ⟨fun key hkey => ?_, fun key hcard hnot => ?_⟩⟩
  · exact quote_eq_of_agreeOn (fun key hkey => agree key (hread key hkey)) ..
  · rw [show (p.receipt (quote l)).updated = p.ledger.postings (quote l).charges from rfl,
      Ledger.keys_postings] at hkey
    exact hwritten l key hkey
  · have hkey : key ∉ (quote l).charges.map (·.key) := fun hmem =>
      (hwritten l key hmem).elim hcard hnot
    refine ⟨Ledger.get_post_of_not_mem hkey p.ledger, ?_⟩
    show (p.ledger.post _).contains key = _
    rw [Ledger.contains_post, decide_eq_false hkey, Bool.false_or]

/-- On the card that grants miles a purchase reads the counter of the mission gate and that of the
tier program, and writes both and those next to them; all of them are in the schedule. -/
theorem schedule_covers_quote_voyage :
    let b : RuleBook Binary64 := .ofScheme Sample.scheme
    let card : Card := .held "voyage" "miles"
      ["base", "voyage_tier", "voyage_flex", "voyage_mission", "voyage_bonus"]
    let q := b.quote card (Sample.whole 1000) "travel" .miles .empty Sample.settings
    (b.scheme.rules.map (·.id)).Nodup ∧
      b.readKeysOf card = [.missionEligible "spend_8000", .tierReward "voyage"] ∧
      (Profile.empty.receipt q).updated.map Prod.fst =
        [.cardSpend "voyage", .tierReward "voyage", .tierSpend "voyage",
          .missionTotal "spend_8000", .missionEligible "spend_8000"] ∧
      ∀ key ∈ [CounterKey.tierReward "voyage", .tierSpend "voyage", .missionTotal "spend_8000",
        .missionEligible "spend_8000"], b.scheme.Schedules key := by
  intro b card q
  have distinct : ((Sample.scheme : Scheme Binary64).rules.map (·.id)).Nodup := by decide +kernel
  have hkeys : (Profile.empty.receipt q).updated.map Prod.fst =
      [.cardSpend "voyage", .tierReward "voyage", .tierSpend "voyage",
        .missionTotal "spend_8000", .missionEligible "spend_8000"] := by decide +kernel
  obtain ⟨-, -, hbook⟩ := schedule_covers_quote distinct card (Sample.whole 1000) "travel"
    .miles Sample.settings
  refine ⟨distinct, by decide +kernel, hkeys, fun key hkey => ?_⟩
  have hwritten : key ∈ (Profile.empty.receipt q).updated.map Prod.fst := by
    rw [hkeys]
    exact List.mem_cons_of_mem _ hkey
  refine ((hbook .empty .empty).1 key hwritten).resolve_left ?_
  exact (by decide +kernel : ∀ key ∈ [CounterKey.tierReward "voyage", .tierSpend "voyage",
    .missionTotal "spend_8000", .missionEligible "spend_8000"], key ≠ .cardSpend "voyage") key hkey

end RuleBook

end CardRewards
