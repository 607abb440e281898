import CardRewards.Proofs.Rule.Check
import CardRewards.Proofs.Rule.Conflict
import CardRewards.RuleBook
import Mathlib.Data.List.Forall2

/-!
# Schemes that differ in base rates

A base rate is a number in a rule and nothing else of a scheme depends on it. Two schemes that
differ in base rates only, all of them valid, have rule books that differ in them only
(`rel_rule?_ofScheme`): the checks come out the same, and as a base rule has no cap, so do the
conflicts between cap modes.
-/

namespace CardRewards

variable {α : Type}

/-! ## Specifications -/

/-- Two specifications that are the same, or that write two base rates in otherwise the same
rule, each of them an amount that can be granted. -/
inductive RuleSpec.SameButBaseRate [Amount α] (s : RuleSpec α) : RuleSpec α → Prop
  | same : SameButBaseRate s s
  | rerated {rate rate' : α} (kind : RuleKind.read? s.kind = some .alwaysBase)
      (written : s.rate = some rate) (valid : Amount.isFinite rate = true ∧ ¬ rate < 0)
      (valid' : Amount.isFinite rate' = true ∧ ¬ rate' < 0) :
      SameButBaseRate s { s with rate := some rate' }

/-- Two schemes that differ in nothing but the rates of base rules. -/
structure Scheme.SameButBaseRates [Amount α] (scheme scheme' : Scheme α) : Prop where
  rules : List.Forall₂ RuleSpec.SameButBaseRate scheme.rules scheme'.rules
  rest : scheme' = { scheme with rules := scheme'.rules }

/-- Two rules that are the same, or that have two base rates and are otherwise the same. -/
inductive Rule.SameButBaseRate (r : Rule α) : Rule α → Prop
  | same : SameButBaseRate r r
  | rerated {rate rate' : α} (effect : r.effect = .base rate) :
      SameButBaseRate r { r with effect := .base rate' }

/-- What related lists are searched for, if no two related elements differ in it, is found in both
of them or in neither. -/
theorem rel_find? {β γ : Type} {R : β → γ → Prop} {p : β → Bool} {q : γ → Bool}
    (hpq : ∀ x y, R x y → p x = q y) {l : List β} {l' : List γ} (h : List.Forall₂ R l l') :
    Option.Rel R (l.find? p) (l'.find? q) := by
  induction h with
  | nil => exact .none
  | @cons x y rest rest' hxy _ ih =>
    have heq := hpq x y hxy
    cases hq : q y with
    | true =>
      rw [List.find?_cons_of_pos (heq.trans hq), List.find?_cons_of_pos hq]
      exact .some hxy
    | false =>
      rw [List.find?_cons_of_neg (by simp [heq, hq]), List.find?_cons_of_neg (by simp [hq])]
      exact ih

/-- What is made of related findings is related if that is so of any two related elements. -/
theorem rel_map {β β' γ γ' : Type} {R : β → β' → Prop} {S : γ → γ' → Prop} {f : β → γ}
    {g : β' → γ'} (hfg : ∀ x y, R x y → S (f x) (g y)) {a : Option β} {a' : Option β'}
    (h : Option.Rel R a a') : Option.Rel S (a.map f) (a'.map g) := by
  cases h with
  | none => exact .none
  | some hxy => exact .some (hfg _ _ hxy)

section

variable [Amount α]

theorem RuleSpec.SameButBaseRate.id_eq {s s' : RuleSpec α} (h : s.SameButBaseRate s') :
    s'.id = s.id := by
  cases h <;> rfl

/-- An amount that can be granted passes the check. -/
theorem RuleSpec.requiredAmount_of_valid {rate : α}
    (valid : Amount.isFinite rate = true ∧ ¬ rate < 0) (field : SpecField) :
    requiredAmount field (some rate) = .ok rate := by
  have hgood : ¬ (!Amount.isFinite rate || decide (rate < 0)) = true := by
    simp [valid.1, valid.2]
  unfold requiredAmount optionalAmount
  simp only [if_neg hgood]
  rfl

/-- A base rule comes to its rate. -/
theorem RuleSpec.checkEffect_of_base {s : RuleSpec α} {rate : α}
    (kind : RuleKind.read? s.kind = some .alwaysBase) (written : s.rate = some rate)
    (valid : Amount.isFinite rate = true ∧ ¬ rate < 0) : s.checkEffect = .ok (.base rate) := by
  unfold checkEffect
  rw [kind]
  show (do let rate ← requiredAmount .rate s.rate; Except.ok (Effect.base rate)) = _
  rw [written, requiredAmount_of_valid valid]
  rfl

/-- Specifications that differ in a base rate come to rules that differ in it. -/
theorem Rule.sameButBaseRate_ofSpec {s s' : RuleSpec α} (h : s.SameButBaseRate s') :
    (ofSpec s).SameButBaseRate (ofSpec s') := by
  cases h with
  | same => exact .same
  | @rerated rate rate' kind written valid valid' =>
    have heffect := RuleSpec.checkEffect_of_base kind written valid
    have heffect' : ({ s with rate := some rate' } : RuleSpec α).checkEffect = .ok (.base rate') :=
      RuleSpec.checkEffect_of_base kind rfl valid'
    -- the gates do not depend on the rate, so both fail their check, or neither does
    have hgates : ({ s with rate := some rate' } : RuleSpec α).checkGates = s.checkGates := rfl
    unfold ofSpec
    rw [hgates, heffect, heffect']
    cases s.checkGates with
    | error defect => exact .same
    | ok gates => exact .rerated rfl

end

/-! ## Lists of specifications -/

namespace Rule

theorem SameButBaseRate.id_eq {r r' : Rule α} (h : r.SameButBaseRate r') : r'.id = r.id := by
  cases h <;> rfl

/-- A base rule has no cap, whatever its rate is. -/
theorem SameButBaseRate.capUses_eq {r r' : Rule α} (h : r.SameButBaseRate r') :
    r'.capUses = r.capUses := by
  cases h with
  | same => rfl
  | rerated effect =>
    have hcap : r.cap? = none := by rw [cap?, effect]
    rw [capUses_eq_nil hcap]
    exact capUses_eq_nil rfl

theorem SameButBaseRate.downgrade_eq {r r' : Rule α} (h : r.SameButBaseRate r')
    (defect : Defect α) : r'.downgrade defect = r.downgrade defect := by
  cases h <;> rfl

variable [Amount α] {specs specs' : List (RuleSpec α)}

theorem rel_get?_standalone (h : List.Forall₂ RuleSpec.SameButBaseRate specs specs')
    (id : String) :
    Option.Rel SameButBaseRate ((standalone specs).get? id) ((standalone specs').get? id) := by
  rw [get?_standalone, get?_standalone]
  have hfound := rel_find? (p := fun s => decide (s.id = id)) (q := fun s => decide (s.id = id))
    (fun s s' hs => by rw [hs.id_eq]) (List.forall₂_reverse_iff.mpr h)
  exact rel_map (R := RuleSpec.SameButBaseRate) (fun _ _ hs => sameButBaseRate_ofSpec hs) hfound

/-- The caps of the rules do not depend on base rates. -/
theorem allCapUses_eq (h : List.Forall₂ RuleSpec.SameButBaseRate specs specs') :
    allCapUses (standalone specs').values = allCapUses (standalone specs).values := by
  have hmap : (standalone specs').map capUses = (standalone specs).map capUses := by
    refine Dict.ext_get? fun id => ?_
    rw [Dict.get?_map, Dict.get?_map]
    have hrel := rel_get?_standalone h id
    generalize (standalone specs).get? id = found, (standalone specs').get? id = found' at hrel ⊢
    cases hrel with
    | none => rfl
    | some hr => rw [Option.map_some, Option.map_some, hr.capUses_eq]
  have hvalues := congrArg (fun d => d.values.flatten) hmap
  simpa [Dict.values, Dict.map, allCapUses, List.flatMap_def, Function.comp_def] using hvalues

/-- Checked lists of specifications that differ in base rates differ in them only. -/
theorem rel_get?_compileAll (h : List.Forall₂ RuleSpec.SameButBaseRate specs specs')
    (id : String) :
    Option.Rel SameButBaseRate ((compileAll specs).get? id) ((compileAll specs').get? id) := by
  have hconflicts : capConflicts (standalone specs').values =
      capConflicts (standalone specs).values := by
    unfold capConflicts
    rw [allCapUses_eq h]
  unfold compileAll
  rw [Dict.get?_map, Dict.get?_map, hconflicts]
  refine rel_map (fun r r' hr => ?_) (rel_get?_standalone h id)
  -- a conflict takes the effect of both, and with it all that they differ in
  rw [hr.id_eq]
  cases conflictOf? (capConflicts (standalone specs).values) r.id with
  | none => exact hr
  | some defect =>
    simp only [hr.downgrade_eq defect]
    exact .same

end Rule

theorem RuleBook.rel_rule?_ofScheme [Amount α] {scheme scheme' : Scheme α}
    (h : scheme.SameButBaseRates scheme') (id : String) :
    Option.Rel Rule.SameButBaseRate ((ofScheme scheme).rule? id) ((ofScheme scheme').rule? id) :=
  Rule.rel_get?_compileAll h.rules id

end CardRewards
