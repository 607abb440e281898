import CardRewards.Proofs.Rule.Check

/-!
# Numbers that are not used

A number in a specification that is negative or not finite does one of two things: it keeps the
rule from being evaluated, or nothing looks at it. For `RuleSpec.cleared` leaves all such numbers
out, and every check that succeeds finds the same without them (`KeepsResult`). So a rule that can
be evaluated is the rule of its cleared specification, `Rule.ofSpec_cleared`.
-/

namespace CardRewards

/-- Where a check succeeds another one does, and finds the same. -/
def KeepsResult {ε β : Type} (x y : Except ε β) : Prop := ∀ found, x = .ok found → y = .ok found

theorem KeepsResult.refl {ε β : Type} (x : Except ε β) : KeepsResult x x := fun _ => id

theorem KeepsResult.bind {ε β γ : Type} {x y : Except ε β} {f g : β → Except ε γ}
    (h : KeepsResult x y) (hnext : ∀ found, KeepsResult (f found) (g found)) :
    KeepsResult (x >>= f) (y >>= g) := by
  intro value hvalue
  obtain ⟨found, hfound, hvalue⟩ := bind_eq_ok_iff.mp hvalue
  exact bind_eq_ok_iff.mpr ⟨found, h found hfound, hnext found value hvalue⟩

variable {α : Type} [Amount α]

namespace RuleSpec

/-- An amount, if it is there and passes its check. -/
def passing (value : Option α) : Option α :=
  value.filter fun v => Amount.isFinite v && !decide (v < 0)

/-- The specification without the amounts that do not pass their checks. -/
def cleared (s : RuleSpec α) : RuleSpec α :=
  { s with
    rate := passing s.rate
    ratePerUnit := passing s.ratePerUnit
    units := passing s.units
    capLimit := passing s.capLimit
    secondaryCapLimit := passing s.secondaryCapLimit
    minSpend := passing s.minSpend
    minSingleSpend := passing s.minSingleSpend
    reqMissionSpend := passing s.reqMissionSpend }

theorem passing_of_optionalAmount {field : SpecField} {value found : Option α}
    (h : optionalAmount field value = .ok found) : passing value = value := by
  obtain rfl := eq_of_optionalAmount h
  cases found with
  | none => rfl
  | some v =>
    obtain ⟨hfinite, hnonneg⟩ := of_optionalAmount h
    simp [passing, hfinite, hnonneg]

theorem keepsResult_optionalAmount (field : SpecField) (value : Option α) :
    KeepsResult (optionalAmount field value) (optionalAmount field (passing value)) := by
  intro found h
  rw [passing_of_optionalAmount h, h]

theorem keepsResult_requiredAmount (field : SpecField) (value : Option α) :
    KeepsResult (requiredAmount field value) (requiredAmount field (passing value)) :=
  (keepsResult_optionalAmount field value).bind fun _ => .refl _

theorem keepsResult_checkCap (s : RuleSpec α) : KeepsResult s.checkCap s.cleared.checkCap := by
  refine (keepsResult_optionalAmount .capLimit s.capLimit).bind fun limit => ?_
  have hkey : s.cleared.capKey = s.capKey := rfl
  rw [hkey]
  generalize s.capKey.bind Text.nonempty? = key
  cases limit with
  | none => cases key <;> exact .refl _
  | some limit =>
    cases key with
    | none => exact .refl _
    | some key =>
      exact (keepsResult_optionalAmount .secondaryCapLimit s.secondaryCapLimit).bind
        fun _ => .refl _

theorem keepsResult_checkGates (s : RuleSpec α) :
    KeepsResult s.checkGates s.cleared.checkGates := by
  refine (KeepsResult.refl s.gateKey).bind fun key => ?_
  refine (keepsResult_optionalAmount .reqMissionSpend s.reqMissionSpend).bind fun required => ?_
  -- the rest is the same whichever mission gate was found
  cases key <;> cases required
  all_goals
    refine (KeepsResult.refl _).bind fun mission => ?_
    refine (keepsResult_optionalAmount .minSpend s.minSpend).bind fun minSpend => ?_
    exact (keepsResult_optionalAmount .minSingleSpend s.minSingleSpend).bind fun _ => .refl _

theorem keepsResult_checkKind (s : RuleSpec α) (kind : RuleKind) :
    KeepsResult (s.checkKind kind) (s.cleared.checkKind kind) := by
  cases kind with
  | flatCategory =>
    refine (KeepsResult.refl _).bind fun composition => ?_
    refine (keepsResult_requiredAmount .rate s.rate).bind fun rate => ?_
    exact (keepsResult_checkCap s).bind fun _ => .refl _
  | alwaysBase => exact (keepsResult_requiredAmount .rate s.rate).bind fun _ => .refl _
  | flexibleAllocation =>
    exact (keepsResult_requiredAmount .ratePerUnit s.ratePerUnit).bind fun _ => .refl _
  | fixedBonusAllocation =>
    refine (keepsResult_requiredAmount .ratePerUnit s.ratePerUnit).bind fun ratePerUnit => ?_
    exact (keepsResult_optionalAmount .units s.units).bind fun _ => .refl _
  | tieredCapped | missionObserver =>
    unfold checkKind
    exact .refl _

theorem keepsResult_checkEffect (s : RuleSpec α) :
    KeepsResult s.checkEffect s.cleared.checkEffect := by
  have hkind : s.cleared.kind = s.kind := rfl
  unfold checkEffect
  rw [hkind]
  cases RuleKind.read? s.kind with
  | none => exact .refl _
  | some kind => exact keepsResult_checkKind s kind

end RuleSpec

namespace Rule

/-- A rule that can be evaluated does not use any number that fails its check. -/
theorem ofSpec_cleared {s : RuleSpec α} (supported : (ofSpec s).isSupported = true) :
    ofSpec s.cleared = ofSpec s := by
  cases hgates : s.checkGates with
  | error defect =>
    simp [ofSpec, hgates, isSupported, defect?] at supported
  | ok gates =>
    cases heffect : s.checkEffect with
    | error defect =>
      simp [ofSpec, hgates, heffect, isSupported, defect?] at supported
    | ok effect =>
      have hgates' := s.keepsResult_checkGates gates hgates
      have heffect' := s.keepsResult_checkEffect effect heffect
      unfold ofSpec
      rw [hgates, heffect, hgates', heffect']
      rfl

/-- A rule in a checked list that can be evaluated is that of a specification in the list without
its bad numbers. -/
theorem exists_ofSpec_cleared {specs : List (RuleSpec α)} {id : String} {r : Rule α}
    (hr : (compileAll specs).get? id = some r) (supported : r.isSupported = true) :
    ∃ s ∈ specs, s.id = id ∧ r = ofSpec s.cleared := by
  obtain ⟨r₀, hr₀, ⟨rfl, -⟩ | ⟨conflict, -, -, rfl⟩⟩ := of_get?_compileAll hr
  · obtain ⟨s, hs, rfl, hid⟩ := of_get?_standalone hr₀
    exact ⟨s, hs, (id_ofSpec s).symm.trans hid, (ofSpec_cleared supported).symm⟩
  · exact nomatch supported

end Rule

end CardRewards
