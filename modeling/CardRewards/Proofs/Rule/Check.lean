import CardRewards.Proofs.Rule.Conflict

/-!
# What a check vouches for

A rule that can be evaluated has passed its checks, so what is in it needs no second look. Each
check is read here as what its success says of the specification: of an amount, that it is finite
and not negative (`of_optionalAmount`); of a cap, an effect or gates, that they are the ones written
(`Cap.Written`, `Effect.Written`, `Gates.Written`), the fields they come from in order.

So the numbers in a checked list of rules are finite and not negative, whatever the kind of the
rule: `effect_sound_of_mem_compileAll`.
-/

namespace CardRewards

/-- A computation in two parts succeeds if both do, the second on what the first found. -/
theorem bind_eq_ok_iff {ε β γ : Type} {x : Except ε β} {f : β → Except ε γ} {value : γ} :
    (x >>= f) = .ok value ↔ ∃ found, x = .ok found ∧ f found = .ok value := by
  cases x <;> simp [bind, Except.bind]

/-- A text that is not empty is the one that was there. -/
theorem Text.bind_nonempty?_eq_some_iff {text : Option String} {name : String} :
    text.bind nonempty? = some name ↔ name ∈ text ∧ name ≠ "" := by
  cases text with
  | none => simp
  | some t =>
    simp only [Option.bind_some, nonempty?, String.isEmpty_iff, Option.mem_def,
      Option.some.injEq]
    split
    next ht =>
      refine iff_of_false nofun ?_
      rintro ⟨rfl, hname⟩
      exact hname ht
    next ht =>
      rw [Option.some.injEq]
      refine ⟨?_, And.left⟩
      rintro rfl
      exact ⟨rfl, ht⟩

variable {α : Type} [Amount α]

/-- The limits of a cap are amounts that can be granted or spent. -/
structure Cap.Sound (cap : Cap α) : Prop where
  limit : Amount.isFinite cap.limit = true ∧ ¬ cap.limit < 0
  second : ∀ second ∈ cap.secondary, Amount.isFinite second.limit = true ∧ ¬ second.limit < 0

namespace RuleSpec

theorem of_optionalAmount {field : SpecField} {value : Option α} {v : α}
    (h : optionalAmount field value = .ok (some v)) : Amount.isFinite v = true ∧ ¬ v < 0 := by
  unfold optionalAmount at h
  split at h
  next => simp at h
  next =>
    split at h
    next => simp at h
    next hgood =>
      obtain rfl := Option.some.inj (Except.ok.inj h)
      simpa using hgood

theorem of_requiredAmount {field : SpecField} {value : Option α} {v : α}
    (h : requiredAmount field value = .ok v) : Amount.isFinite v = true ∧ ¬ v < 0 := by
  obtain ⟨found, hfound, h⟩ := bind_eq_ok_iff.mp h
  cases found with
  | none => exact nomatch h
  | some v' =>
    obtain rfl := Except.ok.inj h
    exact of_optionalAmount hfound

theorem eq_of_optionalAmount {field : SpecField} {value found : Option α}
    (h : optionalAmount field value = .ok found) : found = value := by
  unfold optionalAmount at h
  split at h
  next => exact (Except.ok.inj h).symm
  next =>
    split at h
    next => simp at h
    next => exact (Except.ok.inj h).symm

end RuleSpec

/-! ## Caps -/

/-- A cap is the one that a specification writes: its counters are those named, its limits have
passed their checks, and its mode is known. -/
structure Cap.Written (cap : Cap α) (s : RuleSpec α) : Prop where
  key : (s.capKey.bind Text.nonempty?).map .configured = some cap.key
  limit : RuleSpec.optionalAmount .capLimit s.capLimit = .ok (some cap.limit)
  secondaryKey : (s.secondaryCapKey.bind Text.nonempty?).map .configured =
    cap.secondary.map (·.key)
  secondaryLimit : RuleSpec.optionalAmount .secondaryCapLimit s.secondaryCapLimit =
    .ok (cap.secondary.map (·.limit))
  mode : RuleSpec.modeOr .capMode CapMode.spending CapMode.read? s.capMode =
    (.ok cap.mode : Except (Defect α) CapMode)

/-- A cap that passed its check is the one that is written. -/
theorem RuleSpec.written_of_checkCap {s : RuleSpec α} {cap : Cap α}
    (h : s.checkCap = .ok (some cap)) : cap.Written s := by
  obtain ⟨limit, hlimit, h⟩ := bind_eq_ok_iff.mp h
  split at h
  next => simp at h
  next limit key hkey =>
    obtain ⟨secondLimit, hsecondLimit, h⟩ := bind_eq_ok_iff.mp h
    generalize hsecondKey : s.secondaryCapKey.bind Text.nonempty? = secondKey at h
    dsimp only at h
    -- counter and limit of the second cap are both there, or neither is
    split at h
    case h_1 | h_2 =>
      obtain ⟨second, hsecond, h⟩ := bind_eq_ok_iff.mp h
      obtain ⟨mode, hmode, h⟩ := bind_eq_ok_iff.mp h
      obtain rfl := Except.ok.inj hsecond
      obtain rfl := Option.some.inj (Except.ok.inj h)
      exact
        { key := congrArg _ hkey
          limit := hlimit
          secondaryKey := congrArg _ hsecondKey
          secondaryLimit := hsecondLimit
          mode := hmode }
    case h_3 =>
      obtain ⟨second, hsecond, -⟩ := bind_eq_ok_iff.mp h
      simp at hsecond
  next => simp at h

/-- A check finds no cap, without a defect, exactly if there is neither a limit nor a key for the
first counter. What is said of the second one makes no difference. -/
theorem RuleSpec.checkCap_eq_none_iff {spec : RuleSpec α} :
    spec.checkCap = .ok none ↔ spec.capLimit = none ∧ spec.capKey.bind Text.nonempty? = none := by
  constructor
  · intro h
    obtain ⟨found, hlimit, h⟩ := bind_eq_ok_iff.mp h
    obtain rfl := eq_of_optionalAmount hlimit
    split at h
    next hnone hkey => exact ⟨hnone, hkey⟩
    next =>
      -- a limit and a key come to a cap or to a defect
      obtain ⟨_, -, h⟩ := bind_eq_ok_iff.mp h
      dsimp only at h
      split at h
      all_goals
        obtain ⟨_, -, h⟩ := bind_eq_ok_iff.mp h
        obtain ⟨_, -, h⟩ := bind_eq_ok_iff.mp h
        cases h
    next => cases h
  · rintro ⟨hlimit, hkey⟩
    simp [checkCap, optionalAmount, hlimit, hkey, bind, Except.bind]

/-- The limits of a cap that is written have passed their checks. -/
theorem Cap.Written.sound {s : RuleSpec α} {cap : Cap α} (h : cap.Written s) : cap.Sound := by
  refine ⟨RuleSpec.of_optionalAmount h.limit, fun second hsecond => ?_⟩
  have hlimit := h.secondaryLimit
  rw [hsecond] at hlimit
  exact RuleSpec.of_optionalAmount hlimit

/-! ## Effects -/

/-- An effect is the one that a specification writes: it is of the kind that is named, and the
fields that go with the kind have passed their checks. -/
inductive Effect.Written (s : RuleSpec α) : Effect α → Prop
  | flat {composition : Composition} {rate : α} {cap : Option (Cap α)}
      (kind_eq : RuleKind.read? s.kind = some .flatCategory)
      (mode_eq : RuleSpec.modeOr .mode Composition.add Composition.read? s.mode =
        (.ok composition : Except (Defect α) Composition))
      (rate_eq : RuleSpec.requiredAmount .rate s.rate = .ok rate) (cap_eq : s.checkCap = .ok cap) :
      Written s (.flat composition rate cap)
  | base {rate : α} (kind_eq : RuleKind.read? s.kind = some .alwaysBase)
      (rate_eq : RuleSpec.requiredAmount .rate s.rate = .ok rate) : Written s (.base rate)
  | tiered (kind_eq : RuleKind.read? s.kind = some .tieredCapped) : Written s .tiered
  | flexible {rate : α} (kind_eq : RuleKind.read? s.kind = some .flexibleAllocation)
      (rate_eq : RuleSpec.requiredAmount .ratePerUnit s.ratePerUnit = .ok rate) :
      Written s (.flexible rate)
  | fixedBonus {rate : α} {units : Option α}
      (kind_eq : RuleKind.read? s.kind = some .fixedBonusAllocation)
      (rate_eq : RuleSpec.requiredAmount .ratePerUnit s.ratePerUnit = .ok rate)
      (units_eq : RuleSpec.optionalAmount .units s.units = .ok units) :
      Written s (.fixedBonus rate (units.getD 1))
  | observer {mission : String} (kind_eq : RuleKind.read? s.kind = some .missionObserver)
      (mission_eq : s.missionId.bind Text.nonempty? = some mission) :
      Written s (.observer mission)

/-- An effect that passed its checks is the one that is written. -/
theorem RuleSpec.written_of_checkEffect {s : RuleSpec α} {effect : Effect α}
    (h : s.checkEffect = .ok effect) : effect.Written s := by
  unfold checkEffect at h
  split at h
  next kind hkind =>
    cases kind with
    | flatCategory =>
      obtain ⟨composition, hmode, h⟩ := bind_eq_ok_iff.mp h
      obtain ⟨rate, hrate, h⟩ := bind_eq_ok_iff.mp h
      obtain ⟨cap, hcap, h⟩ := bind_eq_ok_iff.mp h
      obtain rfl := Except.ok.inj h
      exact .flat hkind hmode hrate hcap
    | alwaysBase =>
      obtain ⟨rate, hrate, h⟩ := bind_eq_ok_iff.mp h
      obtain rfl := Except.ok.inj h
      exact .base hkind hrate
    | tieredCapped =>
      obtain rfl := Except.ok.inj h
      exact .tiered hkind
    | flexibleAllocation =>
      obtain ⟨rate, hrate, h⟩ := bind_eq_ok_iff.mp h
      obtain rfl := Except.ok.inj h
      exact .flexible hkind hrate
    | fixedBonusAllocation =>
      obtain ⟨rate, hrate, h⟩ := bind_eq_ok_iff.mp h
      obtain ⟨units, hunits, h⟩ := bind_eq_ok_iff.mp h
      obtain rfl := Except.ok.inj h
      exact .fixedBonus hkind hrate hunits
    | missionObserver =>
      simp only [checkKind] at h
      split at h
      next mission hmission =>
        obtain rfl := Except.ok.inj h
        exact .observer hkind hmission
      next => exact nomatch h
  next => exact nomatch h

/-- The numbers of an effect are amounts that can be granted or spent. Units that are not given are
one, which is not checked. -/
def Effect.Sound : Effect α → Prop
  | .flat _ rate cap => (Amount.isFinite rate = true ∧ ¬ rate < 0) ∧ ∀ c ∈ cap, c.Sound
  | .base rate | .flexible rate => Amount.isFinite rate = true ∧ ¬ rate < 0
  | .fixedBonus rate units =>
    (Amount.isFinite rate = true ∧ ¬ rate < 0) ∧
      (units = 1 ∨ Amount.isFinite units = true ∧ ¬ units < 0)
  | .tiered | .observer _ | .unsupported _ => True

/-- The numbers of an effect that is written have passed their checks. -/
theorem Effect.Written.sound {s : RuleSpec α} {effect : Effect α} (h : effect.Written s) :
    effect.Sound := by
  cases h with
  | flat _ _ hrate hcap =>
    refine ⟨RuleSpec.of_requiredAmount hrate, ?_⟩
    rintro cap rfl
    exact (RuleSpec.written_of_checkCap hcap).sound
  | base _ hrate => exact RuleSpec.of_requiredAmount hrate
  | flexible _ hrate => exact RuleSpec.of_requiredAmount hrate
  | @fixedBonus rate units _ hrate hunits =>
    refine ⟨RuleSpec.of_requiredAmount hrate, ?_⟩
    cases units with
    | none => exact .inl rfl
    | some units => exact .inr (RuleSpec.of_optionalAmount hunits)
  | tiered => trivial
  | observer => trivial

/-! ## Gates -/

/-- Gates are the ones that a specification writes: a mission gate has a counter that is named and
an amount, or neither is there, and the amounts have passed their checks. -/
structure Gates.Written (gates : Gates α) (s : RuleSpec α) : Prop where
  toggle : gates.toggle = s.settingKey.bind Text.nonempty?
  minSpend : RuleSpec.optionalAmount .minSpend s.minSpend = .ok gates.minSpend
  minSingleSpend : RuleSpec.optionalAmount .minSingleSpend s.minSingleSpend =
    .ok gates.minSingleSpend
  missionKey : s.gateKey = .ok (gates.mission.map (·.key))
  missionSpend : RuleSpec.optionalAmount .reqMissionSpend s.reqMissionSpend =
    .ok (gates.mission.map (·.required))

/-- Gates that passed their checks are the ones that are written. -/
theorem RuleSpec.written_of_checkGates {s : RuleSpec α} {gates : Gates α}
    (h : s.checkGates = .ok gates) : gates.Written s := by
  obtain ⟨key, hkey, h⟩ := bind_eq_ok_iff.mp h
  obtain ⟨required, hrequired, h⟩ := bind_eq_ok_iff.mp h
  dsimp only at h
  -- counter and amount of the mission gate are both there, or neither is
  split at h
  case h_1 | h_2 =>
    obtain ⟨mission, hmission, h⟩ := bind_eq_ok_iff.mp h
    obtain ⟨minSpend, hminSpend, h⟩ := bind_eq_ok_iff.mp h
    obtain ⟨minSingleSpend, hminSingleSpend, h⟩ := bind_eq_ok_iff.mp h
    obtain rfl := Except.ok.inj hmission
    obtain rfl := Except.ok.inj h
    exact
      { toggle := rfl
        minSpend := hminSpend
        minSingleSpend := hminSingleSpend
        missionKey := hkey
        missionSpend := hrequired }
  case h_3 =>
    obtain ⟨mission, hmission, -⟩ := bind_eq_ok_iff.mp h
    exact nomatch hmission

/-! ## Rules -/

namespace Rule

/-- A rule that can be evaluated has the effect that its specification writes. -/
theorem effect_ofSpec_cases (s : RuleSpec α) :
    (ofSpec s).effect.Written s ∨ ∃ defect, (ofSpec s).effect = .unsupported defect := by
  unfold ofSpec
  split
  next defect _ => exact .inr ⟨defect, rfl⟩
  next =>
    split
    next defect _ => exact .inr ⟨defect, rfl⟩
    next effect heffect => exact .inl (RuleSpec.written_of_checkEffect heffect)

/-- The numbers in the effect of a rule are sound, whether or not it can be evaluated. -/
theorem effect_sound_ofSpec (s : RuleSpec α) : (ofSpec s).effect.Sound := by
  rcases effect_ofSpec_cases s with hwritten | ⟨defect, hdefect⟩
  · exact hwritten.sound
  · rw [hdefect]
    trivial

/-- The cap of a rule is the one that its specification writes. -/
theorem written_of_cap?_ofSpec {s : RuleSpec α} {cap : Cap α} (h : (ofSpec s).cap? = some cap) :
    cap.Written s := by
  obtain ⟨composition, rate, heffect⟩ := effect_of_cap? h
  rcases effect_ofSpec_cases s with hwritten | ⟨defect, hdefect⟩
  · rw [heffect] at hwritten
    cases hwritten with
    | flat _ _ _ hcap => exact RuleSpec.written_of_checkCap hcap
  · exact nomatch heffect.symm.trans hdefect

/-- The mission that a rule counts for is the one that its specification names. -/
theorem missionId_of_observed?_ofSpec {s : RuleSpec α} {mission : String}
    (h : (ofSpec s).observed? = some mission) : s.missionId.bind Text.nonempty? = some mission := by
  have heffect : (ofSpec s).effect = .observer mission := observed?_eq_some_iff.mp h
  rcases effect_ofSpec_cases s with hwritten | ⟨defect, hdefect⟩
  · rw [heffect] at hwritten
    cases hwritten with
    | observer _ hmission => exact hmission
  · exact nomatch heffect.symm.trans hdefect

/-- The mission gate of a rule is the one that its specification writes. -/
theorem of_mission_ofSpec {s : RuleSpec α} {gate : MissionGate α}
    (h : (ofSpec s).gates.mission = some gate) :
    s.gateKey = .ok (some gate.key) ∧
      RuleSpec.optionalAmount .reqMissionSpend s.reqMissionSpend = .ok (some gate.required) := by
  unfold ofSpec at h
  split at h
  next => exact nomatch h
  next gates hgates =>
    have hwritten := RuleSpec.written_of_checkGates hgates
    have hgate : gates.mission = some gate := by
      split at h <;> exact h
    have hkey := hwritten.missionKey
    have hspend := hwritten.missionSpend
    rw [hgate] at hkey hspend
    exact ⟨hkey, hspend⟩

/-- The numbers in the effect of a rule in a checked list are sound. -/
theorem effect_sound_of_mem_compileAll {specs : List (RuleSpec α)} {r : Rule α}
    (hr : r ∈ (compileAll specs).values) : r.effect.Sound := by
  obtain ⟨id, hid⟩ := Dict.mem_values_iff.mp hr
  obtain ⟨r₀, hr₀, ⟨rfl, -⟩ | ⟨conflict, -, -, rfl⟩⟩ := of_get?_compileAll hid
  · obtain ⟨s, -, rfl, -⟩ := of_get?_standalone hr₀
    exact effect_sound_ofSpec s
  · trivial

/-- The rate of a flat rule in a checked list can be granted. -/
theorem rate_of_mem_compileAll {specs : List (RuleSpec α)} {r : Rule α} {composition : Composition}
    {rate : α} {cap : Option (Cap α)} (hr : r ∈ (compileAll specs).values)
    (heffect : r.effect = .flat composition rate cap) :
    Amount.isFinite rate = true ∧ ¬ rate < 0 := by
  have hsound := effect_sound_of_mem_compileAll hr
  rw [heffect] at hsound
  exact hsound.1

/-- The caps in a checked list of rules have sound limits. -/
theorem sound_of_mem_compileAll {specs : List (RuleSpec α)} {r : Rule α} {cap : Cap α}
    (hr : r ∈ (compileAll specs).values) (hcap : r.cap? = some cap) : cap.Sound := by
  obtain ⟨composition, rate, heffect⟩ := effect_of_cap? hcap
  have hsound := effect_sound_of_mem_compileAll hr
  rw [heffect] at hsound
  exact hsound.2 cap rfl

end Rule

end CardRewards
