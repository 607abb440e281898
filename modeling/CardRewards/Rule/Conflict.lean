import CardRewards.Rule.Check

/-!
# Counters shared between cap modes

A counter either adds up spending or adds up rewards. Two caps that use one counter in different
modes would read each other's numbers in the wrong unit, so neither rule can be evaluated.
`capConflicts` lists such counters with the rules that use them, and `compileAll` checks a whole
list of specifications and turns the rules in conflict into unsupported ones.

A secondary counter counts only in reward mode, since it is not looked at in spending mode.

These are `cap_mode_conflicts` and `compile_all` of the rule compiler (§2 of the requirements,
component 7).
-/

namespace CardRewards

/-- A use of a counter by a cap. -/
structure CapUse where
  key : String
  mode : CapMode
  ruleId : String
deriving DecidableEq

namespace Rule

variable {α : Type}

/-- The counters that the cap of a rule uses, and how. -/
def capUses (r : Rule α) : List CapUse :=
  match r.cap? with
  | none => []
  | some cap =>
    ⟨cap.key.text, cap.mode, r.id⟩ ::
      match cap.mode, cap.secondary with
      | .reward, some second => [⟨second.key.text, .reward, r.id⟩]
      | _, _ => []

/-- All uses of counters by the caps of some rules. -/
def allCapUses (rules : List (Rule α)) : List CapUse := rules.flatMap capUses

/-- Whether a counter is used in both modes. -/
def isShared (uses : List CapUse) (key : String) : Bool :=
  uses.any (fun use => use.key = key && use.mode = .spending) &&
    uses.any (fun use => use.key = key && use.mode = .reward)

/-- The counters used in both modes, in order, each with the sorted ids of the rules that use it. -/
def capConflicts (rules : List (Rule α)) : List (String × List String) :=
  let uses := allCapUses rules
  ((Text.sortedSet (uses.map (·.key))).filter (isShared uses)).map fun key =>
    (key, Text.sortedSet ((uses.filter (·.key = key)).map (·.ruleId)))

/-- The rule with a defect in place of its effect. -/
def downgrade (r : Rule α) (defect : Defect α) : Rule α :=
  { r with effect := .unsupported defect }

/-- The defect of the last conflict that a rule takes part in. -/
def conflictOf? (conflicts : List (String × List String)) (ruleId : String) : Option (Defect α) :=
  (conflicts.filter fun conflict => conflict.2.contains ruleId).getLast?.map fun conflict =>
    .sharedCapKey conflict.1

variable [Amount α]

/-- Each specification checked by itself, by id; of several with one id the last counts. -/
def standalone (specs : List (RuleSpec α)) : Dict (Rule α) :=
  .ofList (specs.map fun s => (s.id, ofSpec s))

/-- A list of specifications checked, by itself and against each other. -/
def compileAll (specs : List (RuleSpec α)) : Dict (Rule α) :=
  let rules := standalone specs
  let conflicts := capConflicts rules.values
  rules.map fun r =>
    match conflictOf? conflicts r.id with
    | some defect => r.downgrade defect
    | none => r

end Rule

end CardRewards
