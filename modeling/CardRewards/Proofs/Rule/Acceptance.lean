import CardRewards.Proofs.Number.Sign
import CardRewards.Proofs.Rule.Check
import CardRewards.Scheme.Sample
import Mathlib.Data.List.DropRight

/-!
# Which specifications are accepted

A specification has some twenty fields, nearly all of them optional, and which of them have to be
there depends on the others and on the kind. `RuleSpec.WellFormed` says so field by field, without a
check being run. A name that is empty is as good as none. A mode may also be blank, and what goes
beside a cap is not looked at where there is no cap.

The checks accept just the specifications that are well-formed, and the rule that one comes to is
drawn from it: its numbers are finite and not negative, and its counters go by names that are given
(`Rule.DrawnFrom`). Both are said by `Rule.ofSpec_accepts`.

For each check there is one lemma on when it succeeds. In one direction it goes by what a success
says of the specification (`Cap.Written`, `Gates.Written`); in the other one the check is run on
fields that fit.
-/

namespace CardRewards

/-! ## Reading names -/

namespace Text

theorem trimFront_trimBack {cs : List Char} (h : trimFront cs = cs) :
    trimFront (trimBack cs) = trimBack cs := by
  have hstarts : trimBack cs <+: cs := List.rdropWhile_prefix isBlank cs
  unfold trimFront at h ⊢
  rw [List.dropWhile_eq_self_iff] at h ⊢
  intro hlength
  -- what is left starts as the whole does
  rw [hstarts.getElem hlength]
  exact h (hlength.trans_le hstarts.length_le)

/-- There is nothing to trim from a text that has been trimmed. -/
theorem trim_trim (s : String) : trim (trim s) = trim s := by
  have hfront : trimFront (trimFront s.toList) = trimFront s.toList :=
    List.dropWhile_idempotent isBlank _
  have hback : trimBack (trimBack (trimFront s.toList)) = trimBack (trimFront s.toList) :=
    List.rdropWhile_idempotent isBlank _
  simp only [trim, String.toList_ofList, trimFront_trimBack hfront, hback]

theorem fold_trim (s : String) : fold (trim s) = fold s := congrArg lower (trim_trim s)

end Text

/-- Where all things have names of their own, the search for a name finds what is called so. -/
theorem find?_name_eq_some_iff {M : Type} {all : List M} {name : M → String}
    (complete : ∀ m, m ∈ all) (distinct : (all.map name).Nodup) {text : String} {m : M} :
    all.find? (fun m => name m = text) = some m ↔ name m = text := by
  constructor
  · intro h
    simpa using List.find?_some h
  · rintro rfl
    obtain ⟨m', hm'⟩ : ∃ m', all.find? (fun m' => name m' = name m) = some m' :=
      Option.isSome_iff_exists.mp (List.find?_isSome.mpr ⟨m, complete m, by simp⟩)
    have hname : name m' = name m := by simpa using List.find?_some hm'
    rw [hm', List.inj_on_of_nodup_map distinct (complete m') (complete m) hname]

theorem RuleKind.read?_eq_some_iff {text : String} {kind : RuleKind} :
    read? text = some kind ↔ kind.name = underscored (Text.fold text) :=
  find?_name_eq_some_iff (by rintro ⟨⟩ <;> decide) (by decide)

theorem Composition.read?_eq_some_iff {text : String} {composition : Composition} :
    read? text = some composition ↔ composition.name = Text.fold text :=
  find?_name_eq_some_iff (by rintro ⟨⟩ <;> decide) (by decide)

theorem CapMode.read?_eq_some_iff {text : String} {mode : CapMode} :
    read? text = some mode ↔ mode.name = Text.fold text :=
  find?_name_eq_some_iff (by rintro ⟨⟩ <;> decide) (by decide)

/-! ## Fields that fit -/

/-- A finite double from zero upwards: what can be spent or granted. -/
def Binary64.IsAmount (v : Binary64) : Prop := v.isFinite = true ∧ 0 ≤ v

/-- It is what passes the check of an amount. -/
theorem Binary64.isAmount_iff {v : Binary64} :
    v.IsAmount ↔ Amount.isFinite v = true ∧ ¬ v < 0 := by
  constructor
  · rintro ⟨hfinite, hnonneg⟩
    exact ⟨hfinite, not_lt_zero_iff.mpr (.inr (zero_le_iff_onSide.mp hnonneg))⟩
  · rintro ⟨hfinite, hnonneg⟩
    exact ⟨hfinite, zero_le_of_not_lt hfinite hnonneg⟩

theorem Binary64.isAmount_one : IsAmount 1 := ⟨by decide +kernel, by decide +kernel⟩

namespace RuleSpec

/-- A name that is there and not empty. -/
def Named (text : Option String) : Prop := ∃ name ∈ text, name ≠ ""

/-- An amount that is there. -/
def Stated (value : Option Binary64) : Prop := ∃ v ∈ value, v.IsAmount

/-- An amount, if there is a number at all. -/
def Allowed (value : Option Binary64) : Prop := ∀ v ∈ value, v.IsAmount

/-- A mode that is not there, blank, or the name of one but for white space around it and case. -/
def Readable {M : Type} (name : M → String) (text : Option String) : Prop :=
  ∀ t ∈ text, Text.trim t = "" ∨ ∃ mode, name mode = Text.fold t

/-- A counter and its limit: both are there, or neither is. -/
def Paired (key : Option String) (limit : Option Binary64) : Prop :=
  limit = none ∧ ¬ Named key ∨ Stated limit ∧ Named key

/-- The mission gate is not there at all, or there is an amount and its counter is named in just one
of the two ways. -/
def MissionGateFits (s : RuleSpec Binary64) : Prop :=
  s.reqMissionSpend = none ∧ ¬ Named s.reqMissionId ∧ ¬ Named s.reqMissionKey ∨
    Stated s.reqMissionSpend ∧ (Named s.reqMissionId ↔ ¬ Named s.reqMissionKey)

/-- A counter and a limit make a cap, and neither is there without the other. Where there is a cap,
its mode can be read and a second counter has a limit too. -/
def CapFits (s : RuleSpec Binary64) : Prop :=
  Paired s.capKey s.capLimit ∧
    (Named s.capKey →
      Readable CapMode.name s.capMode ∧ Paired s.secondaryCapKey s.secondaryCapLimit)

/-- The fields that a kind needs are there, and those that it looks at fit. -/
def FieldsFit (s : RuleSpec Binary64) : RuleKind → Prop
  | .flatCategory => Readable Composition.name s.mode ∧ Stated s.rate ∧ s.CapFits
  | .alwaysBase => Stated s.rate
  | .tieredCapped => True
  | .flexibleAllocation => Stated s.ratePerUnit
  | .fixedBonusAllocation => Stated s.ratePerUnit ∧ Allowed s.units
  | .missionObserver => Named s.missionId

/-- The fields of a specification go together. -/
structure WellFormed (s : RuleSpec Binary64) : Prop where
  missionGate : s.MissionGateFits
  minSpend : Allowed s.minSpend
  minSingleSpend : Allowed s.minSingleSpend
  kind : ∃ kind : RuleKind, kind.name = RuleKind.underscored (Text.fold s.kind) ∧ s.FieldsFit kind

/-! ## When a check succeeds -/

variable {s : RuleSpec Binary64}

theorem exists_bind_nonempty?_iff {text : Option String} :
    (∃ name, text.bind Text.nonempty? = some name) ↔ Named text := by
  simp only [Text.bind_nonempty?_eq_some_iff, Named]

theorem bind_nonempty?_eq_none_iff {text : Option String} :
    text.bind Text.nonempty? = none ↔ ¬ Named text := by
  rw [← exists_bind_nonempty?_iff, Option.eq_none_iff_forall_ne_some, not_exists]

theorem optionalAmount_eq_ok_iff {field : SpecField} {value found : Option Binary64} :
    optionalAmount field value = .ok found ↔ found = value ∧ Allowed value := by
  constructor
  · intro h
    obtain rfl := eq_of_optionalAmount h
    refine ⟨rfl, ?_⟩
    rintro v rfl
    exact Binary64.isAmount_iff.mpr (of_optionalAmount h)
  · rintro ⟨rfl, h⟩
    cases found with
    | none => rfl
    | some v =>
      obtain ⟨hfinite, hnonneg⟩ := Binary64.isAmount_iff.mp (h v rfl)
      simp [optionalAmount, hfinite, hnonneg]

theorem requiredAmount_eq_ok_iff {field : SpecField} {value : Option Binary64} {v : Binary64} :
    requiredAmount field value = .ok v ↔ value = some v ∧ v.IsAmount := by
  rw [requiredAmount, bind_eq_ok_iff]
  simp only [optionalAmount_eq_ok_iff]
  constructor
  · rintro ⟨found, ⟨rfl, h⟩, hv⟩
    cases found with
    | none => cases hv
    | some v' =>
      obtain rfl := Except.ok.inj hv
      exact ⟨rfl, h v' rfl⟩
  · rintro ⟨rfl, h⟩
    exact ⟨some v, ⟨rfl, by rintro _ ⟨⟩; exact h⟩, rfl⟩

theorem exists_requiredAmount_iff {field : SpecField} {value : Option Binary64} :
    (∃ v, requiredAmount field value = .ok v) ↔ Stated value := by
  simp only [requiredAmount_eq_ok_iff, Stated, Option.mem_def]

theorem exists_modeOr_iff {M : Type} {name : M → String} {read? : String → Option M}
    (hread : ∀ text mode, read? text = some mode ↔ name mode = Text.fold text) (field : SpecField)
    (default : M) (value : Option String) :
    (∃ mode, (modeOr field default read? value : Except (Defect Binary64) M) = .ok mode) ↔
      Readable name value := by
  cases value with
  | none => simp [modeOr, Readable]
  | some t =>
    by_cases hblank : Text.trim t = ""
    · simp [modeOr, Readable, Text.nonempty?, hblank]
    · have hiff : (∃ mode, read? (Text.trim t) = some mode) ↔ ∃ mode, name mode = Text.fold t := by
        simp only [hread, Text.fold_trim]
      simp only [modeOr, Readable, Text.nonempty?, Option.map_some, Option.bind_some,
        String.isEmpty_iff, hblank, if_false, Option.mem_def, Option.some.injEq, forall_eq',
        false_or, ← hiff]
      cases read? (Text.trim t) <;> simp

theorem exists_optionalAmount_iff {field : SpecField} {value : Option Binary64} :
    (∃ v, optionalAmount field value = .ok (some v)) ↔ Stated value := by
  simp only [optionalAmount_eq_ok_iff]
  constructor
  · rintro ⟨v, rfl, h⟩
    exact ⟨v, rfl, h v rfl⟩
  · rintro ⟨v, rfl, h⟩
    exact ⟨v, rfl, by rintro _ ⟨⟩; exact h⟩

theorem optionalAmount_eq_none_iff {field : SpecField} {value : Option Binary64} :
    optionalAmount field value = .ok none ↔ value = none := by
  rw [optionalAmount_eq_ok_iff]
  constructor
  · exact fun h => h.1.symm
  · rintro rfl
    exact ⟨rfl, nofun⟩

/-! ### Caps -/

/-- A limit that is checked, with the counter that is named for it, is a pair. -/
theorem paired_of_checked {field : SpecField} {key : Option String} {limit : Option Binary64}
    (found : Option (Limit Binary64))
    (hkey : (key.bind Text.nonempty?).map .configured = found.map (·.key))
    (hlimit : optionalAmount field limit = .ok (found.map (·.limit))) : Paired key limit := by
  cases found with
  | none =>
    exact .inl ⟨optionalAmount_eq_none_iff.mp hlimit,
      bind_nonempty?_eq_none_iff.mp (Option.map_eq_none_iff.mp hkey)⟩
  | some found =>
    obtain ⟨name, hname, -⟩ := Option.map_eq_some_iff.mp hkey
    exact .inr ⟨exists_optionalAmount_iff.mp ⟨_, hlimit⟩,
      exists_bind_nonempty?_iff.mp ⟨name, hname⟩⟩

theorem exists_checkCap_iff : (∃ cap, s.checkCap = .ok cap) ↔ s.CapFits := by
  constructor
  · rintro ⟨cap, h⟩
    cases cap with
    | none =>
      obtain ⟨hlimit, hkey⟩ := checkCap_eq_none_iff.mp h
      have hunnamed := bind_nonempty?_eq_none_iff.mp hkey
      exact ⟨.inl ⟨hlimit, hunnamed⟩, fun hnamed => absurd hnamed hunnamed⟩
    | some cap =>
      have hwritten := written_of_checkCap h
      refine ⟨?_, fun _ => ⟨?_, ?_⟩⟩
      · exact paired_of_checked (some ⟨cap.key, cap.limit⟩) hwritten.key hwritten.limit
      · exact (exists_modeOr_iff @CapMode.read?_eq_some_iff _ _ _).mp ⟨cap.mode, hwritten.mode⟩
      · exact paired_of_checked cap.secondary hwritten.secondaryKey hwritten.secondaryLimit
  · rintro ⟨⟨hlimit, hunnamed⟩ | ⟨hstated, hnamed⟩, hbeside⟩
    · exact ⟨none, checkCap_eq_none_iff.mpr ⟨hlimit, bind_nonempty?_eq_none_iff.mpr hunnamed⟩⟩
    · obtain ⟨hreadable, hpaired⟩ := hbeside hnamed
      obtain ⟨limit, hlimit⟩ : ∃ v, optionalAmount .capLimit s.capLimit = .ok (some v) :=
        exists_optionalAmount_iff.mpr hstated
      obtain ⟨key, hkey⟩ := exists_bind_nonempty?_iff.mpr hnamed
      obtain ⟨mode, hmode⟩ :=
        (exists_modeOr_iff @CapMode.read?_eq_some_iff .capMode .spending _).mpr hreadable
      rcases hpaired with ⟨hsecondLimit, hunnamed'⟩ | ⟨hstated', hnamed'⟩
      · have hsecondLimit : optionalAmount .secondaryCapLimit s.secondaryCapLimit = .ok none :=
          optionalAmount_eq_none_iff.mpr hsecondLimit
        have hsecondKey := bind_nonempty?_eq_none_iff.mpr hunnamed'
        exact ⟨some ⟨.configured key, limit, mode, none⟩, by
          simp [checkCap, bind, Except.bind, hlimit, hkey, hsecondLimit, hsecondKey, hmode]⟩
      · obtain ⟨limit', hsecondLimit⟩ :
            ∃ v, optionalAmount .secondaryCapLimit s.secondaryCapLimit = .ok (some v) :=
          exists_optionalAmount_iff.mpr hstated'
        obtain ⟨key', hsecondKey⟩ := exists_bind_nonempty?_iff.mpr hnamed'
        exact ⟨some ⟨.configured key, limit, mode, some ⟨.configured key', limit'⟩⟩, by
          simp [checkCap, bind, Except.bind, hlimit, hkey, hsecondLimit, hsecondKey, hmode]⟩

/-! ### Gates -/

theorem gateKey_eq_none_iff :
    s.gateKey = .ok none ↔ ¬ Named s.reqMissionId ∧ ¬ Named s.reqMissionKey := by
  rw [gateKey, ← bind_nonempty?_eq_none_iff, ← bind_nonempty?_eq_none_iff]
  cases s.reqMissionId.bind Text.nonempty? <;> cases s.reqMissionKey.bind Text.nonempty? <;> simp

theorem exists_gateKey_iff :
    (∃ key, s.gateKey = .ok (some key)) ↔ (Named s.reqMissionId ↔ ¬ Named s.reqMissionKey) := by
  rw [gateKey, ← exists_bind_nonempty?_iff, ← exists_bind_nonempty?_iff]
  cases s.reqMissionId.bind Text.nonempty? <;> cases s.reqMissionKey.bind Text.nonempty? <;> simp

theorem exists_checkGates_iff :
    (∃ gates, s.checkGates = .ok gates) ↔
      s.MissionGateFits ∧ Allowed s.minSpend ∧ Allowed s.minSingleSpend := by
  constructor
  · rintro ⟨gates, h⟩
    have hwritten := written_of_checkGates h
    refine ⟨?_, (optionalAmount_eq_ok_iff.mp hwritten.minSpend).2,
      (optionalAmount_eq_ok_iff.mp hwritten.minSingleSpend).2⟩
    have hkey := hwritten.missionKey
    have hspend := hwritten.missionSpend
    cases hmission : gates.mission with
    | none =>
      rw [hmission] at hkey hspend
      exact .inl ⟨optionalAmount_eq_none_iff.mp hspend, gateKey_eq_none_iff.mp hkey⟩
    | some gate =>
      rw [hmission] at hkey hspend
      exact .inr ⟨exists_optionalAmount_iff.mp ⟨_, hspend⟩, exists_gateKey_iff.mp ⟨_, hkey⟩⟩
  · rintro ⟨hmission, hminSpend, hminSingleSpend⟩
    have hminSpend : optionalAmount .minSpend s.minSpend = .ok s.minSpend :=
      optionalAmount_eq_ok_iff.mpr ⟨rfl, hminSpend⟩
    have hminSingleSpend : optionalAmount .minSingleSpend s.minSingleSpend = .ok s.minSingleSpend :=
      optionalAmount_eq_ok_iff.mpr ⟨rfl, hminSingleSpend⟩
    rcases hmission with ⟨hspend, hunnamed⟩ | ⟨hstated, hnamed⟩
    · have hspend : optionalAmount .reqMissionSpend s.reqMissionSpend = .ok none :=
        optionalAmount_eq_none_iff.mpr hspend
      have hkey := gateKey_eq_none_iff.mpr hunnamed
      simp [checkGates, bind, Except.bind, hkey, hspend, hminSpend, hminSingleSpend]
    · obtain ⟨required, hspend⟩ :
          ∃ v, optionalAmount .reqMissionSpend s.reqMissionSpend = .ok (some v) :=
        exists_optionalAmount_iff.mpr hstated
      obtain ⟨key, hkey⟩ := exists_gateKey_iff.mpr hnamed
      simp [checkGates, bind, Except.bind, hkey, hspend, hminSpend, hminSingleSpend]

/-! ### Kinds -/

theorem exists_bind_eq_ok_iff {ε β γ : Type} {x : Except ε β} {f : β → Except ε γ} :
    (∃ value, (x >>= f) = .ok value) ↔ ∃ found, x = .ok found ∧ ∃ value, f found = .ok value := by
  simp only [bind_eq_ok_iff]
  constructor
  · rintro ⟨value, found, hfound, hvalue⟩
    exact ⟨found, hfound, value, hvalue⟩
  · rintro ⟨found, hfound, value, hvalue⟩
    exact ⟨value, found, hfound, hvalue⟩

theorem exists_checkKind_iff {kind : RuleKind} :
    (∃ effect, s.checkKind kind = .ok effect) ↔ s.FieldsFit kind := by
  have hmode := exists_modeOr_iff @Composition.read?_eq_some_iff .mode .add s.mode
  cases kind with
  | tieredCapped => exact iff_of_true ⟨.tiered, rfl⟩ trivial
  | missionObserver =>
    simp only [checkKind, FieldsFit, ← exists_bind_nonempty?_iff]
    cases s.missionId.bind Text.nonempty? <;> simp
  | flatCategory | alwaysBase | flexibleAllocation | fixedBonusAllocation =>
    -- each of the fields is checked without regard to what was found in the others
    simp only [checkKind, FieldsFit, exists_bind_eq_ok_iff, Except.ok.injEq, exists_eq', and_true,
      exists_and_right, exists_requiredAmount_iff, exists_checkCap_iff, hmode,
      optionalAmount_eq_ok_iff, exists_eq, true_and]

theorem exists_checkEffect_iff :
    (∃ effect, s.checkEffect = .ok effect) ↔
      ∃ kind : RuleKind,
        kind.name = RuleKind.underscored (Text.fold s.kind) ∧ s.FieldsFit kind := by
  unfold checkEffect
  simp only [← RuleKind.read?_eq_some_iff]
  cases RuleKind.read? s.kind with
  | none => simp
  | some kind => simp [exists_checkKind_iff]

theorem wellFormed_iff :
    s.WellFormed ↔ (∃ gates, s.checkGates = .ok gates) ∧ ∃ effect, s.checkEffect = .ok effect := by
  rw [exists_checkGates_iff, exists_checkEffect_iff]
  constructor
  · exact fun h => ⟨⟨h.missionGate, h.minSpend, h.minSingleSpend⟩, h.kind⟩
  · rintro ⟨⟨hmission, hminSpend, hminSingleSpend⟩, hkind⟩
    exact ⟨hmission, hminSpend, hminSingleSpend, hkind⟩

end RuleSpec

/-! ## What an accepted specification comes to -/

section Amounts

variable {α : Type}

/-- The numbers of a cap. -/
def Cap.amounts (cap : Cap α) : List α := cap.limit :: (cap.secondary.map (·.limit)).toList

/-- The numbers of an effect. -/
def Effect.amounts : Effect α → List α
  | .flat _ rate cap => rate :: cap.toList.flatMap (·.amounts)
  | .base rate | .flexible rate => [rate]
  | .fixedBonus rate units => [rate, units]
  | .tiered | .observer _ | .unsupported _ => []

/-- The numbers of gates. -/
def Gates.amounts (gates : Gates α) : List α :=
  gates.minSpend.toList ++ gates.minSingleSpend.toList ++ (gates.mission.map (·.required)).toList

/-- The numbers of a rule. -/
def Rule.amounts (r : Rule α) : List α := r.gates.amounts ++ r.effect.amounts

end Amounts

/-- A rule is drawn from a specification: id, label and categories are its own, gates and effect are
the ones that are written, the numbers can be spent or granted, and the counters, the promotion and
the mission are named in it. -/
structure Rule.DrawnFrom (r : Rule Binary64) (s : RuleSpec Binary64) : Prop where
  id : r.id = s.id
  label : r.label = s.displayLabel
  categories : r.categories = s.categories
  gates : r.gates.Written s
  effect : r.effect.Written s
  amounts : ∀ v ∈ r.amounts, v.IsAmount
  capKey : ∀ cap ∈ r.cap?, ∃ key ∈ s.capKey, key ≠ "" ∧ cap.key = .configured key
  secondaryKey : ∀ cap ∈ r.cap?, ∀ second ∈ cap.secondary,
    ∃ key ∈ s.secondaryCapKey, key ≠ "" ∧ second.key = .configured key
  missionKey : ∀ gate ∈ r.gates.mission,
    (∃ mission ∈ s.reqMissionId, mission ≠ "" ∧ gate.key = .missionEligible mission) ∨
      ∃ key ∈ s.reqMissionKey, key ≠ "" ∧ gate.key = .configured key
  toggle : ∀ promotion ∈ r.gates.toggle, promotion ∈ s.settingKey ∧ promotion ≠ ""
  observed : ∀ mission ∈ r.observed?, mission ∈ s.missionId ∧ mission ≠ ""

theorem Cap.Sound.isAmount {cap : Cap Binary64} (h : cap.Sound) {v : Binary64}
    (hv : v ∈ cap.amounts) : v.IsAmount := by
  rw [Binary64.isAmount_iff]
  rcases List.mem_cons.mp hv with rfl | hv
  · exact h.limit
  · obtain ⟨second, hsecond, rfl⟩ := Option.map_eq_some_iff.mp (Option.mem_toList.mp hv)
    exact h.second second hsecond

theorem Effect.Sound.isAmount {effect : Effect Binary64} (h : effect.Sound) {v : Binary64}
    (hv : v ∈ effect.amounts) : v.IsAmount := by
  cases effect with
  | flat composition rate cap =>
    rcases List.mem_cons.mp hv with rfl | hv
    · exact Binary64.isAmount_iff.mpr h.1
    · obtain ⟨cap, hcap, hv⟩ := List.mem_flatMap.mp hv
      exact (h.2 cap (Option.mem_toList.mp hcap)).isAmount hv
  | base rate | flexible rate =>
    obtain rfl := List.mem_singleton.mp hv
    exact Binary64.isAmount_iff.mpr h
  | fixedBonus rate units =>
    obtain ⟨hrate, hunits⟩ := h
    rcases List.mem_pair.mp hv with rfl | rfl
    · exact Binary64.isAmount_iff.mpr hrate
    · rcases hunits with rfl | hunits
      · exact Binary64.isAmount_one
      · exact Binary64.isAmount_iff.mpr hunits
  | tiered | observer | unsupported => cases hv

theorem Gates.Written.isAmount {gates : Gates Binary64} {s : RuleSpec Binary64}
    (h : gates.Written s) {v : Binary64} (hv : v ∈ gates.amounts) : v.IsAmount := by
  have hchecked : ∀ {field value} {found : Option Binary64},
      RuleSpec.optionalAmount field value = .ok found → v ∈ found → v.IsAmount := by
    intro field value found hfound hv
    obtain ⟨rfl, hallowed⟩ := RuleSpec.optionalAmount_eq_ok_iff.mp hfound
    exact hallowed v hv
  simp only [amounts, List.mem_append, Option.mem_toList] at hv
  rcases hv with (hv | hv) | hv
  · exact hchecked h.minSpend hv
  · exact hchecked h.minSingleSpend hv
  · exact hchecked h.missionSpend hv

/-- A configured counter goes by the name that was given for it. -/
theorem RuleSpec.of_map_configured {text : Option String} {key : CounterKey}
    (h : (text.bind Text.nonempty?).map .configured = some key) :
    ∃ name ∈ text, name ≠ "" ∧ key = .configured name := by
  obtain ⟨name, hname, rfl⟩ := Option.map_eq_some_iff.mp h
  obtain ⟨hmem, hne⟩ := Text.bind_nonempty?_eq_some_iff.mp hname
  exact ⟨name, hmem, hne, rfl⟩

/-- A mission gate reads a mission that is named, or a counter that is. -/
theorem RuleSpec.of_gateKey {s : RuleSpec Binary64} {key : CounterKey}
    (h : s.gateKey = .ok (some key)) :
    (∃ mission ∈ s.reqMissionId, mission ≠ "" ∧ key = .missionEligible mission) ∨
      ∃ name ∈ s.reqMissionKey, name ≠ "" ∧ key = .configured name := by
  unfold gateKey at h
  split at h
  next => cases h
  next mission hmission _ =>
    cases h
    obtain ⟨hmem, hne⟩ := Text.bind_nonempty?_eq_some_iff.mp hmission
    exact .inl ⟨mission, hmem, hne, rfl⟩
  next name _ hname =>
    cases h
    obtain ⟨hmem, hne⟩ := Text.bind_nonempty?_eq_some_iff.mp hname
    exact .inr ⟨name, hmem, hne, rfl⟩
  next => cases h

namespace Rule

/-- A rule can be evaluated if its gates and what it does pass their checks. -/
theorem isSupported_ofSpec_iff {α : Type} [Amount α] {s : RuleSpec α} :
    (ofSpec s).isSupported = true ↔
      (∃ gates, s.checkGates = .ok gates) ∧ ∃ effect, s.checkEffect = .ok effect := by
  rw [isSupported, defect?, ofSpec]
  cases s.checkGates with
  | error => simp
  | ok gates =>
    cases heffect : s.checkEffect with
    | error => simp
    | ok effect => cases RuleSpec.written_of_checkEffect heffect <;> simp

/-- A rule that can be evaluated has the gates and the effect that its specification writes. -/
theorem written_of_isSupported {α : Type} [Amount α] {s : RuleSpec α}
    (supported : (ofSpec s).isSupported = true) :
    (ofSpec s).gates.Written s ∧ (ofSpec s).effect.Written s := by
  obtain ⟨⟨gates, hgates⟩, effect, heffect⟩ := isSupported_ofSpec_iff.mp supported
  simp only [ofSpec, hgates, heffect]
  exact ⟨RuleSpec.written_of_checkGates hgates, RuleSpec.written_of_checkEffect heffect⟩

/-- A rule that can be evaluated is drawn from its specification. -/
theorem drawnFrom_ofSpec {s : RuleSpec Binary64} (supported : (ofSpec s).isSupported = true) :
    (ofSpec s).DrawnFrom s := by
  obtain ⟨hgates, heffect⟩ := written_of_isSupported supported
  exact
    { id := id_ofSpec s
      label := label_ofSpec s
      categories := categories_ofSpec s
      gates := hgates
      effect := heffect
      amounts := fun v hv => (List.mem_append.mp hv).elim hgates.isAmount heffect.sound.isAmount
      capKey := fun cap hcap => RuleSpec.of_map_configured (written_of_cap?_ofSpec hcap).key
      secondaryKey := fun cap hcap second hsecond => by
        have hkey := (written_of_cap?_ofSpec hcap).secondaryKey
        rw [hsecond] at hkey
        exact RuleSpec.of_map_configured hkey
      missionKey := fun gate hgate => RuleSpec.of_gateKey (of_mission_ofSpec hgate).1
      toggle := fun promotion hpromotion => by
        rw [hgates.toggle] at hpromotion
        exact Text.bind_nonempty?_eq_some_iff.mp hpromotion
      observed := fun mission hmission =>
        Text.bind_nonempty?_eq_some_iff.mp (missionId_of_observed?_ofSpec hmission) }

/-- A specification comes to a rule that can be evaluated exactly if it is well-formed, and the rule
is then drawn from it. -/
theorem ofSpec_accepts (s : RuleSpec Binary64) :
    ((ofSpec s).isSupported = true ↔ s.WellFormed) ∧
      ((ofSpec s).isSupported = true → (ofSpec s).DrawnFrom s) :=
  ⟨isSupported_ofSpec_iff.trans RuleSpec.wellFormed_iff.symm, drawnFrom_ofSpec⟩

/-- A flat rule written as loosely as it may be: with dashes and capitals in its kind, white space
around a mode, a blank mode, and names that are empty. -/
def loose : RuleSpec Binary64 :=
  { (RuleSpec.flat "dining" (Sample.thousandths 50) ["dining"]).gatedByKey "m" 0 with
    kind := " Flat-Category "
    mode := some " REPLACE "
    capKey := some "k"
    capLimit := some (Sample.whole 300)
    capMode := some "  "
    secondaryCapKey := some ""
    reqMissionId := some "" }

/-- The loose rule is accepted. It no longer is if its second counter has a limit, or if its mission
gate names a mission as well. -/
theorem ofSpec_accepts_loose :
    loose.WellFormed ∧ (ofSpec loose).DrawnFrom loose ∧
      ¬ { loose with secondaryCapLimit := some 0 }.WellFormed ∧
      ¬ { loose with reqMissionId := some "spring" }.WellFormed := by
  have supported : (ofSpec loose).isSupported = true := by decide +kernel
  refine ⟨(ofSpec_accepts loose).1.mp supported, (ofSpec_accepts loose).2 supported, ?_, ?_⟩
  · rw [← (ofSpec_accepts _).1]
    decide +kernel
  · rw [← (ofSpec_accepts _).1]
    decide +kernel

end Rule

end CardRewards
