import CardRewards.Quote.Basic
import CardRewards.RuleBook

/-!
# What a rule contributes

A card lists its rules by position. For a given purchase the rule at a position contributes at most
one line with a rate, and perhaps a charge to a cap, to the tier program or to a mission. What it
contributes depends on the purchase, on the settings, on the counters that the rule itself reads
and on whether a rule of the card replaces the base rate, and not on the other positions.

Gates are looked at in the order promotion, single spend, spend, mission. A rule that fails one of
the first three contributes nothing. One that a mission keeps locked says so if it would otherwise
match.

In the requirements (§4.2, steps 3 and 4) this is the rule evaluator at one rule: `gateState` is
`check_gates`, and a contribution what `apply_flat`, `apply_tier` or `apply_flexible` pushes.
-/

namespace CardRewards

/-- All that the evaluation of a card depends on besides the card. -/
structure Occasion (α : Type) where
  book : RuleBook α
  /-- The category on the card, after resolution. -/
  category : String
  amount : α
  ledger : Ledger α
  settings : Settings

/-- Whether a rule may apply. -/
inductive GateState (α : Type) where
  | passed
  | failed
  /-- The mission stands at an amount below the one required. -/
  | locked (progress required : α)
deriving DecidableEq

/-- Whether the gates let a rule apply. -/
def GateState.isPassed {α : Type} : GateState α → Bool
  | passed => true
  | _ => false

/-- What a rule contributes to a quote. -/
structure Contribution (α : Type) where
  line : Option (QuoteLine α)
  /-- The reward charged to a cap on rewards, with its counters. -/
  rewardCharge : Option (CounterKey × Option CounterKey × α)
  /-- The counter of a cap on spending. -/
  spendingCharge : Option CounterKey
  tierCharge : Option (TierCharge α)
  missionTag : Option MissionTag
deriving DecidableEq

namespace Contribution

variable {α : Type}

/-- No contribution. -/
def nothing : Contribution α := ⟨none, none, none, none, none⟩

instance : Inhabited (Contribution α) := ⟨nothing⟩

/-- A line and nothing else. -/
def ofLine (line : QuoteLine α) : Contribution α := { nothing with line := some line }

end Contribution

namespace Rule

variable {α : Type}

/-- The line of a rule. -/
def line (r : Rule α) (status : LineStatus) (rate : α) : QuoteLine α :=
  ⟨r.id, r.label, status, rate, none⟩

/-- The line of a rule with a note. -/
def noted (r : Rule α) (status : LineStatus) (rate : α) (note : String) : QuoteLine α :=
  ⟨r.id, r.label, status, rate, some note⟩

end Rule

namespace Occasion

variable {α : Type}

/-- Whether the category matches the categories of a rule. -/
def hits (o : Occasion α) (r : Rule α) : Bool :=
  o.book.scheme.hierarchy.isMatch r.categories o.category

/-- Whether the category matches, a rule without categories matching all of them. -/
def hitsOrOpen (o : Occasion α) (r : Rule α) : Bool := r.categories.isEmpty || o.hits r

/-- The bucket that the category belongs to. -/
def bucket? (o : Occasion α) : Option Bucket :=
  o.book.resolver.bucketOf? o.book.scheme.allocation o.category

variable [Amount α]

/-- Whether the gates of a rule let it apply. -/
def gateState (o : Occasion α) (r : Rule α) : GateState α :=
  if r.gates.toggle.any fun toggle => !o.settings.isEnabled toggle then .failed
  else if r.gates.minSingleSpend.any fun least => decide (o.amount < least) then .failed
  else if r.gates.minSpend.any fun least => decide (o.amount < least) then .failed
  else
    match r.gates.mission with
    | none => .passed
    | some gate =>
      let progress := o.ledger.get gate.key
      if progress < gate.required then
        if o.hits r then .locked progress gate.required else .failed
      else .passed

/-- Whether a rule takes the place of the base rate on this occasion. -/
def isReplacedBy (o : Occasion α) (r : Rule α) : Bool :=
  r.isReplacer && o.hits r && (o.gateState r).isPassed

/-- What the caps in force leave of the rewards of a rule. -/
def rewardHeadroom (o : Occasion α) (cap : Cap α) : α :=
  let primary := Amount.headroom cap.limit (o.ledger.get cap.key)
  match cap.secondary with
  | some second => Amount.smaller primary (Amount.headroom second.limit (o.ledger.get second.key))
  | none => primary

/-- A line that says that a cap leaves nothing. -/
def exhausted (r : Rule α) (cap : Cap α) : Contribution α :=
  .ofLine (r.noted .capped 0 ("额度已用尽 (" ++ cap.key.text ++ ")"))

/-- A flat rule under a cap on rewards. -/
def rewardCapped (o : Occasion α) (r : Rule α) (rate : α) (cap : Cap α) : Contribution α :=
  let rest := o.rewardHeadroom cap
  if rest ≤ 0 then exhausted r cap
  else
    let full := o.amount * rate
    let charge (granted : α) := (cap.key, cap.secondary.map (·.key), granted)
    if rest < full then
      { Contribution.ofLine (r.noted .partly (rest / o.amount)
          ("剩余奖励额度 " ++ Amount.rounded rest)) with
        rewardCharge := if 0 < rest then some (charge rest) else none }
    else
      { Contribution.ofLine (r.line .active rate) with
        rewardCharge := if 0 < full then some (charge full) else none }

/-- A flat rule under a cap on spending. -/
def spendingCapped (o : Occasion α) (r : Rule α) (rate : α) (cap : Cap α) : Contribution α :=
  let rest := Amount.headroom cap.limit (o.ledger.get cap.key)
  if rest ≤ 0 then exhausted r cap
  else if rest < o.amount then
    { Contribution.ofLine (r.noted .partly (rest * rate / o.amount)
        ("剩余消费额度 " ++ Amount.rounded rest)) with
      spendingCharge := some cap.key }
  else { Contribution.ofLine (r.line .active rate) with spendingCharge := some cap.key }

/-- A flat rule whose category matches. -/
def flat (o : Occasion α) (r : Rule α) (rate : α) : Option (Cap α) → Contribution α
  | none => .ofLine (r.line .active rate)
  | some cap =>
    match cap.mode with
    | .reward => o.rewardCapped r rate cap
    | .spending => o.spendingCapped r rate cap

/-- A tiered rule for a row of the tier program. -/
def tierRow (o : Occasion α) (r : Rule α) (program : TierProgram α) (row : TierLevel α) :
    Contribution α :=
  let qualifies := o.book.scheme.hierarchy.isMatch [program.privilegedCategory] o.category
  let rest := Amount.headroom row.cap (o.ledger.get (.tierReward program.id))
  let full := o.amount * row.rate
  let level := toString row.level.toNat
  let charged (line : QuoteLine α) (reward : α) : Contribution α :=
    { Contribution.ofLine line with tierCharge := some ⟨program.id, reward, qualifies⟩ }
  if rest ≤ 0 then charged (r.noted .capped 0 ("第 " ++ level ++ " 档额度已用尽")) 0
  else if rest < full then
    charged (r.noted .partly (rest / o.amount)
      ("第 " ++ level ++ " 档剩余额度 " ++ Amount.rounded rest)) rest
  else charged (r.line .active row.rate) full

/-- A tiered rule. -/
def tiered (o : Occasion α) (r : Rule α) : Contribution α :=
  if o.settings.tierLevel = 0 then .nothing
  else if !o.hitsOrOpen r then .nothing
  else
    match o.book.scheme.tierProgram with
    | none => .ofLine (r.noted .unsupported 0 "未配置等级计划")
    | some program =>
      match program.row? o.settings.tierLevel with
      | none =>
        .ofLine (r.noted .unsupported 0
          ("等级计划 " ++ program.id ++ " 缺少第 " ++ toString o.settings.tierLevel.toNat ++ " 档"))
      | some row => o.tierRow r program row

/-- A rule whose rate grows with the weight of the bucket. -/
def flexible (o : Occasion α) (r : Rule α) (ratePerUnit : α) : Contribution α :=
  if !o.hitsOrOpen r then .nothing
  else
    match o.bucket? with
    | none => .nothing
    | some bucket =>
      let weight := o.settings.weight bucket
      if weight = 0 then .nothing
      else
        .ofLine (r.noted .active (Amount.ofWeight weight * ratePerUnit)
          (bucket.name ++ " × " ++ toString weight.toNat))

/-- A rule with a set number of units for any category in a bucket. -/
def fixedBonus (o : Occasion α) (r : Rule α) (ratePerUnit units : α) : Contribution α :=
  if o.hitsOrOpen r && o.bucket?.isSome then .ofLine (r.line .active (units * ratePerUnit))
  else .nothing

/-- What a rule contributes once its gates let it apply. -/
def applied (o : Occasion α) (replaced : Bool) (r : Rule α) : Contribution α :=
  match r.effect with
  | .flat _ rate cap => if o.hits r then o.flat r rate cap else .nothing
  | .base rate => if replaced then .nothing else .ofLine (r.line .active rate)
  | .tiered => o.tiered r
  | .flexible ratePerUnit => o.flexible r ratePerUnit
  | .fixedBonus ratePerUnit units => o.fixedBonus r ratePerUnit units
  | .observer mission => { Contribution.nothing with missionTag := some ⟨mission, o.hitsOrOpen r⟩ }
  | .unsupported _ => .nothing

/-- What a rule contributes. -/
def ruleContribution (o : Occasion α) (replaced : Bool) (r : Rule α) : Contribution α :=
  match r.defect? with
  | some defect => .ofLine (r.noted .unsupported 0 defect.message)
  | none =>
    match o.gateState r with
    | .failed => .nothing
    | .locked progress required =>
      .ofLine (r.noted .locked 0
        ("任务进度 " ++ Amount.rounded progress ++ "/" ++ Amount.rounded required))
    | .passed => o.applied replaced r

/-- What a position of a card contributes; an id without a rule contributes a line that says so. -/
def contribution (o : Occasion α) (replaced : Bool) (position : String × Option (Rule α)) :
    Contribution α :=
  match position.2 with
  | some rule => o.ruleContribution replaced rule
  | none => .ofLine ⟨position.1, position.1, .unsupported, 0, some "规则不存在"⟩

end Occasion

end CardRewards
