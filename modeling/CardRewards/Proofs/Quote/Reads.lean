import CardRewards.Proofs.Quote.Booking
import CardRewards.Proofs.Quote.Position
import CardRewards.Proofs.Session.Run
import CardRewards.Rule.Conflict

/-!
# The counters that a quote depends on

A rule reads few counters: that of its mission gate and those that its cap uses (`Rule.readKeys`);
a tiered rule also reads what the tier program has granted. All other counters are the same to it.
So a quote of a card depends on nothing in the ledger but the counters that the rules of the card
read and that of the tier program (`RuleBook.readKeysOf`): ledgers that agree on these have equal
quotes, `quote_eq_of_agreeOn`. What is booked on other counters makes no difference to the card:
`quote_determined_by_readKeys`.

The second counter of a cap on spending is not among them, since nothing looks at it.
-/

namespace CardRewards

/-- Two ledgers stand at the same amounts in some counters. One that is missing stands at zero. -/
def Ledger.AgreeOn {α : Type} [Amount α] (keys : List CounterKey) (l l' : Ledger α) : Prop :=
  ∀ key ∈ keys, l.get key = l'.get key

/-- The counters that a rule reads: of its mission gate, and of its cap. -/
def Rule.readKeys {α : Type} (r : Rule α) : List CounterKey :=
  r.gates.mission.toList.map (·.key) ++ r.capUses.map fun use => .configured use.key

/-- The counters that a quote of a card reads: those that its rules read, and that of the rewards of
the tier program. -/
def RuleBook.readKeysOf {α : Type} (b : RuleBook α) (card : Card) : List CounterKey :=
  (b.rulesOf card).flatMap Rule.readKeys ++
    b.scheme.tierProgram.toList.map fun program => .tierReward program.id

namespace Rule

variable {α : Type} {r : Rule α}

theorem gate_mem_readKeys {gate : MissionGate α} (h : r.gates.mission = some gate) :
    gate.key ∈ r.readKeys := by
  refine List.mem_append_left _ (List.mem_map.mpr ⟨gate, ?_, rfl⟩)
  rw [h]
  exact List.mem_singleton_self gate

theorem cap_mem_readKeys {cap : Cap α} (h : r.cap? = some cap) : cap.key ∈ r.readKeys := by
  refine List.mem_append_right _ ?_
  simp [capUses, h, CounterKey.configured]

theorem secondary_mem_readKeys {cap : Cap α} {second : Limit α} (h : r.cap? = some cap)
    (hmode : cap.mode = .reward) (hsecond : cap.secondary = some second) :
    second.key ∈ r.readKeys := by
  refine List.mem_append_right _ ?_
  simp [capUses, h, hmode, hsecond, CounterKey.configured]

/-- A rule reads the counter of its gate, that of its cap, and under a cap on rewards the second
one. -/
theorem mem_readKeys {key : CounterKey} (h : key ∈ r.readKeys) :
    (∃ gate, r.gates.mission = some gate ∧ key = gate.key) ∨
      ∃ cap, r.cap? = some cap ∧
        (key = cap.key ∨ ∃ second, cap.secondary = some second ∧ key = second.key) := by
  rcases List.mem_append.mp h with h | h
  · obtain ⟨gate, hgate, rfl⟩ := List.mem_map.mp h
    exact .inl ⟨gate, Option.mem_toList.mp hgate, rfl⟩
  · obtain ⟨use, huse, rfl⟩ := List.mem_map.mp h
    unfold capUses at huse
    split at huse
    next => exact nomatch huse
    next cap hcap =>
      rcases List.mem_cons.mp huse with rfl | huse
      · exact .inr ⟨cap, hcap, .inl rfl⟩
      · split at huse
        next second _ hsecond =>
          rw [List.mem_singleton.mp huse]
          exact .inr ⟨cap, hcap, .inr ⟨second, hsecond, rfl⟩⟩
        next => exact nomatch huse

end Rule

/-! ## What a rule makes of the ledger -/

namespace Occasion

variable {α : Type} [Amount α] {o : Occasion α} {r : Rule α} {ledger : Ledger α}

theorem rewardHeadroom_congr {cap : Cap α} (hcap : r.cap? = some cap) (hmode : cap.mode = .reward)
    (agree : o.ledger.AgreeOn r.readKeys ledger) :
    ({ o with ledger } : Occasion α).rewardHeadroom cap = o.rewardHeadroom cap := by
  unfold rewardHeadroom
  rw [agree cap.key (Rule.cap_mem_readKeys hcap)]
  cases hsecond : cap.secondary with
  | none => rfl
  | some second =>
    simp only [agree second.key (Rule.secondary_mem_readKeys hcap hmode hsecond)]

/-- A flat rule under a cap reads the counters that the cap uses in its mode. -/
theorem flat_congr {rate : α} {cap : Option (Cap α)} (hcap : r.cap? = cap)
    (agree : o.ledger.AgreeOn r.readKeys ledger) :
    ({ o with ledger } : Occasion α).flat r rate cap = o.flat r rate cap := by
  cases cap with
  | none => rfl
  | some cap =>
    unfold flat
    cases hmode : cap.mode with
    | reward =>
      simp only [hmode, rewardCapped]
      rw [rewardHeadroom_congr hcap hmode agree]
    | spending =>
      simp only [hmode, spendingCapped]
      rw [agree cap.key (Rule.cap_mem_readKeys hcap)]

/-- A tiered rule reads what the tier program has granted. -/
theorem tiered_congr (agree : ∀ program ∈ o.book.scheme.tierProgram,
      o.ledger.get (.tierReward program.id) = ledger.get (.tierReward program.id)) :
    ({ o with ledger } : Occasion α).tiered r = o.tiered r := by
  unfold tiered
  cases hprogram : o.book.scheme.tierProgram with
  | none => rfl
  | some program =>
    simp only [tierRow]
    rw [agree program hprogram]
    rfl

/-- A rule that applies reads the counters of its cap, and a tiered one that of the tier program. -/
theorem applied_congr {replaced : Bool} (agree : o.ledger.AgreeOn r.readKeys ledger)
    (agreeTier : ∀ program ∈ o.book.scheme.tierProgram,
      o.ledger.get (.tierReward program.id) = ledger.get (.tierReward program.id)) :
    ({ o with ledger } : Occasion α).applied replaced r = o.applied replaced r := by
  unfold applied
  cases heffect : r.effect with
  | flat composition rate cap =>
    simp only
    rw [flat_congr (by simp [Rule.cap?, heffect]) agree]
    rfl
  | tiered => exact tiered_congr agreeTier
  | base | flexible | fixedBonus | observer | unsupported => rfl

theorem contribution_congr {replaced : Bool} {position : String × Option (Rule α)}
    (agree : ∀ r ∈ position.2, o.ledger.AgreeOn r.readKeys ledger)
    (agreeTier : ∀ program ∈ o.book.scheme.tierProgram,
      o.ledger.get (.tierReward program.id) = ledger.get (.tierReward program.id)) :
    ({ o with ledger } : Occasion α).contribution replaced position =
      o.contribution replaced position := by
  unfold contribution
  cases hrule : position.2 with
  | none => rfl
  | some r =>
    simp only [ruleContribution]
    rw [gateState_congr fun gate hgate => agree r hrule gate.key (Rule.gate_mem_readKeys hgate),
      applied_congr (agree r hrule) agreeTier]

end Occasion

/-! ## What a quote makes of the ledger -/

namespace RuleBook

variable {α : Type} [Amount α] {b : RuleBook α} {card : Card} {o : Occasion α}
  {ledger ledger' : Ledger α}

/-- **A quote depends on the counters that it reads** and on no others of the ledger. -/
theorem quote_eq_of_agreeOn (agree : ledger.AgreeOn (b.readKeysOf card) ledger') (amount : α)
    (rawCategory : String) (mode : DisplayMode) (settings : Settings) :
    b.quote card amount rawCategory mode ledger settings =
      b.quote card amount rawCategory mode ledger' settings := by
  let o := b.occasion card amount rawCategory ledger settings
  have agreeRule : ∀ r ∈ b.rulesOf card, o.ledger.AgreeOn r.readKeys ledger' := fun r hr key hkey =>
    agree key (List.mem_append_left _ (List.mem_flatMap.mpr ⟨r, hr, hkey⟩))
  have agreeTier : ∀ program ∈ o.book.scheme.tierProgram,
      o.ledger.get (.tierReward program.id) = ledger'.get (.tierReward program.id) := by
    intro program hprogram
    refine agree _ (List.mem_append_right _ (List.mem_map.mpr ⟨program, ?_, rfl⟩))
    exact Option.mem_toList.mpr hprogram
  have hreplacer : b.replacer? { o with ledger := ledger' } card = b.replacer? o card :=
    replacer?_congr fun r hr gate hgate => agreeRule r hr gate.key (Rule.gate_mem_readKeys hgate)
  have hparts : b.contributions { o with ledger := ledger' } card = b.contributions o card := by
    unfold contributions
    rw [hreplacer]
    refine List.map_congr_left fun position hposition => ?_
    exact Occasion.contribution_congr
      (fun r hr => agreeRule r (mem_rulesOf.mpr ⟨position, hposition, hr⟩)) agreeTier
  have hoccasion : b.occasion card amount rawCategory ledger' settings =
      { o with ledger := ledger' } := rfl
  unfold quote
  simp only [hoccasion, hreplacer, hparts]
  rfl

/-! ## What other bookings make of a quote -/

/-- Booking a quote leaves the counters that it does not announce as they stand. -/
theorem agreeOn_book {q : Quote α} {keys : List CounterKey}
    (untouched : ∀ key ∈ q.touchedKeys, key ∉ keys) (p : Profile α) :
    (p.book q).ledger.AgreeOn keys p.ledger := by
  intro key hkey
  refine Ledger.get_post_of_not_mem (fun hcharged => ?_) p.ledger
  exact untouched key (q.keys_charges_sublist.subset hcharged) hkey

/-- **Evaluating a card reads the counters of the card and nothing else in the ledger.** Ledgers that
agree on them, a counter that is missing agreeing with one at zero, give the same quote for every
purchase and all settings. So a quote that announces none of them can be booked, through any store
and whether it takes the profile or not, without a change of what the card is quoted. -/
theorem quote_determined_by_readKeys (scheme : Scheme α) (card : Card) :
    let b := ofScheme scheme
    (∀ l l' : Ledger α, l.AgreeOn (b.readKeysOf card) l' →
      ∀ amount rawCategory mode settings,
        b.quote card amount rawCategory mode l settings =
          b.quote card amount rawCategory mode l' settings) ∧
    ∀ q : Quote α, (∀ key ∈ q.touchedKeys, key ∉ b.readKeysOf card) →
      ∀ {σ : Type} [ProfileStore σ α] (a : Account σ α) amount rawCategory mode,
        let quote (p : Profile α) := b.quote card amount rawCategory mode p.ledger p.settings
        quote (a.profile.book q) = quote a.profile ∧
          quote (b.commit a q).2.profile = quote a.profile := by
  intro b
  refine ⟨fun l l' agree amount rawCategory mode settings =>
    quote_eq_of_agreeOn agree amount rawCategory mode settings, ?_⟩
  intro q untouched σ _ a amount rawCategory mode quote
  have hbooked : quote (a.profile.book q) = quote a.profile :=
    quote_eq_of_agreeOn (agreeOn_book untouched a.profile) amount rawCategory mode _
  refine ⟨hbooked, ?_⟩
  -- a booking that fails leaves the profile as it is
  rw [Session.profile_commit]
  split
  next => exact hbooked
  next => rfl

/-- Dining on a card whose cap stands at an explicit zero is quoted as on the empty ledger, whatever
else has been used; and buying something online on another card changes nothing about it. -/
theorem quote_determined_by_readKeys_otherCard :
    let b : RuleBook Binary64 := .ofScheme Sample.scheme
    let card : Card := .held "dining_reward" "cash" ["dining_reward"]
    let other : Card := .held "online_plus" "cash" ["base", "online_bonus"]
    let dining (l : Ledger Binary64) := b.quote card (Sample.whole 2500) "dining" .cash l .empty
    let online := b.quote other (Sample.whole 2500) "online" .cash .empty .empty
    let used : Ledger Binary64 :=
      (Ledger.empty.add (.missionEligible "spend_8000") (Sample.whole 500)).reset (.configured "k")
    let a : Account (MemoryStore Binary64) Binary64 := ⟨.empty, ⟨.empty⟩⟩
    b.readKeysOf card = [.configured "k", .tierReward "voyage"] ∧
      online.touchedKeys = [.cardSpend "online_plus", .configured "online_plus_online"] ∧
      dining used = dining .empty ∧ dining (b.commit a online).2.profile.ledger = dining .empty := by
  intro b card other dining online used a
  have hread : b.readKeysOf card = [.configured "k", .tierReward "voyage"] := by decide +kernel
  have htouched : online.touchedKeys =
      [.cardSpend "online_plus", .configured "online_plus_online"] := by decide +kernel
  obtain ⟨hledgers, hbookings⟩ :=
    quote_determined_by_readKeys (Sample.scheme : Scheme Binary64) card
  have hagree : used.AgreeOn (b.readKeysOf card) .empty := by
    rw [hread]
    show ∀ key ∈ [CounterKey.configured "k", .tierReward "voyage"],
      used.get key = Ledger.get .empty key
    decide +kernel
  have huntouched : ∀ key ∈ online.touchedKeys, key ∉ b.readKeysOf card := by
    rw [hread, htouched]
    decide
  exact ⟨hread, htouched, hledgers used .empty hagree (Sample.whole 2500) "dining" .cash .empty,
    (hbookings online huntouched a (Sample.whole 2500) "dining" .cash).2⟩

end RuleBook

end CardRewards
