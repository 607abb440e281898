import CardRewards.Proofs.Rule.Check
import CardRewards.Quote.Contribution

/-!
# The gates of a rule

Of the four gates of a rule three ask about the settings and the purchase (`Occasion.Admits`), and
only the last one, that of a mission, about the ledger. So the ledger decides between a rule that
applies and one that is locked, and nothing else (`gateState_eq_passed_iff`,
`gateState_eq_locked_iff`); where a rule waits for its mission alone, it is one or the other
(`AwaitsMission.ruleContribution_eq`).
-/

namespace CardRewards

/-! ## What a gate looks at -/

namespace RuleSpec

variable {α : Type} [Amount α] {s : RuleSpec α} {mission : String} {required : α}

/-- A gate that names a mission looks at what counts for the mission. -/
theorem mission_of_checkGates {gates : Gates α} (h : s.checkGates = .ok gates)
    (named : mission ≠ "") (hmission : s.reqMissionId = some mission)
    (hrequired : s.reqMissionSpend = some required) :
    gates.mission = some ⟨.missionEligible mission, required⟩ := by
  have hwritten := written_of_checkGates h
  have hspend : gates.mission.map (·.required) = some required :=
    (eq_of_optionalAmount hwritten.missionSpend).trans hrequired
  obtain ⟨gate, hgate, rfl⟩ := Option.map_eq_some_iff.mp hspend
  have hkey := hwritten.missionKey
  have hid : s.reqMissionId.bind Text.nonempty? = some mission := by
    simp [hmission, Text.nonempty?, named]
  rw [hgate, gateKey, hid] at hkey
  cases hother : s.reqMissionKey.bind Text.nonempty? with
  | none =>
    rw [hother] at hkey
    have hsame : CounterKey.missionEligible mission = gate.key :=
      Option.some.inj (Except.ok.inj hkey)
    rw [hgate, hsame]
  | some other => simp [hother] at hkey

end RuleSpec

namespace Rule

variable {α : Type} [Amount α]

theorem mission_ofSpec {spec : RuleSpec α} {mission : String} {required : α}
    (supported : (ofSpec spec).isSupported = true) (named : mission ≠ "")
    (hmission : spec.reqMissionId = some mission)
    (hrequired : spec.reqMissionSpend = some required) :
    (ofSpec spec).gates.mission = some ⟨.missionEligible mission, required⟩ := by
  unfold ofSpec at supported ⊢
  cases hgates : spec.checkGates with
  | error defect => simp [hgates, isSupported, defect?] at supported
  | ok gates =>
    have hgate := RuleSpec.mission_of_checkGates hgates named hmission hrequired
    cases spec.checkEffect <;> exact hgate

/-- The line of a rule that a mission keeps locked: it tells how far the mission has come. -/
def lockedLine (r : Rule α) (progress required : α) : QuoteLine α :=
  r.noted .locked 0
    ("任务进度 " ++ Amount.rounded progress ++ "/" ++ Amount.rounded required)

end Rule

/-! ## What the gates let through -/

namespace Occasion

variable {α : Type} [Amount α] {o : Occasion α} {r : Rule α}

/-- The settings and the purchase let a rule apply: the promotion has been signed up for, and the
amount is large enough. -/
structure Admits (o : Occasion α) (r : Rule α) : Prop where
  toggle : ∀ toggle ∈ r.gates.toggle, o.settings.isEnabled toggle = true
  minSingleSpend : ∀ least ∈ r.gates.minSingleSpend, ¬ o.amount < least
  minSpend : ∀ least ∈ r.gates.minSpend, ¬ o.amount < least

/-- Where settings and purchase let a rule apply, its mission decides. -/
theorem gateState_of_admits (h : o.Admits r) :
    o.gateState r =
      match r.gates.mission with
      | none => .passed
      | some gate =>
        if o.ledger.get gate.key < gate.required then
          if o.hits r then .locked (o.ledger.get gate.key) gate.required else .failed
        else .passed := by
  -- none of the three checks that come before the mission turns the rule away
  have htoggle : ¬ (r.gates.toggle.any fun toggle => !o.settings.isEnabled toggle) = true := by
    rw [Option.any_eq_true]
    rintro ⟨toggle, hmem, hdisabled⟩
    simp [h.toggle toggle hmem] at hdisabled
  have hsingle : ¬ (r.gates.minSingleSpend.any fun least => decide (o.amount < least)) = true := by
    rw [Option.any_eq_true]
    rintro ⟨least, hmem, hbelow⟩
    exact h.minSingleSpend least hmem (of_decide_eq_true hbelow)
  have hspend : ¬ (r.gates.minSpend.any fun least => decide (o.amount < least)) = true := by
    rw [Option.any_eq_true]
    rintro ⟨least, hmem, hbelow⟩
    exact h.minSpend least hmem (of_decide_eq_true hbelow)
  exact (if_neg htoggle).trans ((if_neg hsingle).trans (if_neg hspend))

theorem admits_of_gateState_ne (h : o.gateState r ≠ .failed) : o.Admits r := by
  unfold gateState at h
  -- a check that turns the rule away ends in a failure, which `h` rules out
  split at h
  next => exact absurd rfl h
  next htoggle =>
    split at h
    next => exact absurd rfl h
    next hsingle =>
      split at h
      next => exact absurd rfl h
      next hspend =>
        simp only [Option.any_eq_true, not_exists, not_and, decide_eq_true_eq] at hsingle hspend
        refine ⟨fun toggle hmem => ?_, hsingle, hspend⟩
        cases henabled : o.settings.isEnabled toggle with
        | true => rfl
        | false =>
          rw [Option.any_eq_true] at htoggle
          exact absurd ⟨toggle, hmem, by simp [henabled]⟩ htoggle

/-- A rule applies if settings and purchase let it and its mission has come far enough. -/
theorem gateState_eq_passed_iff :
    o.gateState r = .passed ↔
      o.Admits r ∧ ∀ gate ∈ r.gates.mission, ¬ o.ledger.get gate.key < gate.required := by
  constructor
  · intro h
    have hadmits : o.Admits r := admits_of_gateState_ne (by simp [h])
    refine ⟨hadmits, fun gate hgate hbelow => ?_⟩
    rw [gateState_of_admits hadmits, hgate] at h
    simp only [if_pos hbelow] at h
    split at h <;> exact nomatch h
  · rintro ⟨hadmits, hreached⟩
    rw [gateState_of_admits hadmits]
    cases hgate : r.gates.mission with
    | none => rfl
    | some gate => exact if_neg (hreached gate hgate)

/-- A rule is locked by a mission that has not come far enough, if nothing else keeps it from
applying. -/
theorem gateState_eq_locked_iff {progress required : α} :
    o.gateState r = .locked progress required ↔
      o.Admits r ∧ o.hits r = true ∧ progress < required ∧
        ∃ gate, r.gates.mission = some gate ∧ o.ledger.get gate.key = progress ∧
          gate.required = required := by
  constructor
  · intro h
    have hadmits : o.Admits r := admits_of_gateState_ne (by simp [h])
    rw [gateState_of_admits hadmits] at h
    cases hgate : r.gates.mission with
    | none => simp [hgate] at h
    | some gate =>
      simp only [hgate] at h
      split at h
      next hbelow =>
        split at h
        next hhits =>
          obtain ⟨rfl, rfl⟩ := GateState.locked.inj h
          exact ⟨hadmits, hhits, hbelow, gate, rfl, rfl, rfl⟩
        next => exact nomatch h
      next => exact nomatch h
  · rintro ⟨hadmits, hhits, hbelow, gate, hgate, rfl, rfl⟩
    rw [gateState_of_admits hadmits, hgate]
    simp only [if_pos hbelow, if_pos hhits]

/-- The ledger decides about the gates of a rule only by the counter of its mission gate. -/
theorem gateState_congr {ledger : Ledger α}
    (agree : ∀ gate ∈ r.gates.mission, o.ledger.get gate.key = ledger.get gate.key) :
    ({ o with ledger } : Occasion α).gateState r = o.gateState r := by
  unfold gateState
  cases hgate : r.gates.mission with
  | none => rfl
  | some gate =>
    simp only [agree gate hgate]
    rfl

theorem isReplacedBy_congr {ledger : Ledger α}
    (agree : ∀ gate ∈ r.gates.mission, o.ledger.get gate.key = ledger.get gate.key) :
    ({ o with ledger } : Occasion α).isReplacedBy r = o.isReplacedBy r := by
  unfold isReplacedBy
  rw [gateState_congr agree]
  rfl

/-- All gates of a rule let it apply. -/
structure Passes (o : Occasion α) (r : Rule α) : Prop extends o.Admits r where
  mission : ∀ gate ∈ r.gates.mission, ¬ o.ledger.get gate.key < gate.required

theorem passes_iff : o.Passes r ↔ o.gateState r = .passed := by
  rw [gateState_eq_passed_iff]
  constructor
  · intro h
    exact ⟨h.toAdmits, h.mission⟩
  · rintro ⟨hadmits, hmission⟩
    exact ⟨hadmits, hmission⟩

/-- Nothing but its mission keeps a rule from applying. -/
structure AwaitsMission (o : Occasion α) (r : Rule α) : Prop extends o.Admits r where
  hits : o.hits r = true

variable {gate : MissionGate α}

theorem AwaitsMission.gateState_eq (h : o.AwaitsMission r) (hgate : r.gates.mission = some gate) :
    o.gateState r =
      if o.ledger.get gate.key < gate.required then
        .locked (o.ledger.get gate.key) gate.required
      else .passed := by
  rw [gateState_of_admits h.toAdmits, hgate]
  simp only [if_pos h.hits]

/-- What a rule contributes whose mission alone decides: the line that it is locked, or all that it
does. -/
theorem AwaitsMission.ruleContribution_eq (h : o.AwaitsMission r)
    (supported : r.isSupported = true) (hgate : r.gates.mission = some gate) (replaced : Bool) :
    o.ruleContribution replaced r =
      if o.ledger.get gate.key < gate.required then
        .ofLine (r.lockedLine (o.ledger.get gate.key) gate.required)
      else o.applied replaced r := by
  have hdefect : r.defect? = none := Option.isNone_iff_eq_none.mp supported
  unfold ruleContribution
  rw [hdefect, h.gateState_eq hgate]
  by_cases hlocked : o.ledger.get gate.key < gate.required
  · rw [if_pos hlocked, if_pos hlocked]
    rfl
  · rw [if_neg hlocked, if_neg hlocked]

end Occasion

end CardRewards
