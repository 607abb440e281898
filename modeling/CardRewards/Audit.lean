import CardRewards.RuleBook

/-!
# Auditing a scheme

An audit looks for what a scheme probably did not mean: rules that cannot be evaluated, counters
used in two modes, categories nobody knows, ids that lead nowhere, currencies without a conversion,
levels missing from the tier program. Its findings keep nothing from being evaluated.

A rule that is unsupported because of a shared counter is reported with the counter, and not again
by itself.

In the requirements (§2, component 8) this is the configuration audit, and a finding an
`AuditFinding`.
-/

namespace CardRewards

/-- What an audit finds. -/
inductive Finding where
  | unsupportedRule (ruleId reason : String)
  | sharedCapKey (key : String) (ruleIds : List String)
  | unknownCategory (ruleId category : String)
  | danglingRuleRef (cardId ruleId : String)
  | missingConversion (cardId currency : String)
  | tierLevelGap (programId : String) (level : UInt8)
  | undefinedMission (ruleId missionId : String)
  /-- A second counter on a cap on spending, which is not looked at. -/
  | ignoredSecondaryCap (ruleId : String)
  | danglingCampaignRule (campaignId ruleId : String)
deriving DecidableEq, Repr

namespace Finding

/-- The code of a finding. -/
def code : Finding → String
  | unsupportedRule .. => "UNSUPPORTED_RULE"
  | sharedCapKey .. => "SHARED_CAP_KEY"
  | unknownCategory .. => "UNKNOWN_CATEGORY"
  | danglingRuleRef .. => "DANGLING_RULE_REF"
  | missingConversion .. => "MISSING_CONVERSION"
  | tierLevelGap .. => "TIER_LEVEL_GAP"
  | undefinedMission .. => "UNDEFINED_MISSION"
  | ignoredSecondaryCap _ => "IGNORED_SECONDARY_CAP"
  | danglingCampaignRule .. => "DANGLING_CAMPAIGN_RULE"

/-- The wording of a finding. -/
def message : Finding → String
  | unsupportedRule ruleId reason => "规则 " ++ ruleId ++ " 无法评估: " ++ reason
  | sharedCapKey key ruleIds =>
    "封顶键 " ++ key ++ " 被不同口径的规则共用: " ++ ", ".intercalate ruleIds
  | unknownCategory ruleId category => "规则 " ++ ruleId ++ " 引用了未知类别 " ++ category
  | danglingRuleRef cardId ruleId => "卡片 " ++ cardId ++ " 引用了不存在的规则 " ++ ruleId
  | missingConversion cardId currency =>
    "卡片 " ++ cardId ++ " 的币种 " ++ currency ++ " 缺少换算条目"
  | tierLevelGap programId level =>
    "等级计划 " ++ programId ++ " 缺少第 " ++ toString level.toNat ++ " 档"
  | undefinedMission ruleId missionId =>
    "规则 " ++ ruleId ++ " 引用了未定义的任务 " ++ missionId
  | ignoredSecondaryCap ruleId => "规则 " ++ ruleId ++ " 为消费口径封顶，次级封顶不会生效"
  | danglingCampaignRule campaignId ruleId =>
    "推广活动 " ++ campaignId ++ " 引用了不存在的规则 " ++ ruleId

end Finding

namespace RuleBook

variable {α : Type} [Amount α]

/-- The counters shared between cap modes, before any rule is downgraded. -/
def conflicts (b : RuleBook α) : List (String × List String) :=
  Rule.capConflicts (b.scheme.rules.map Rule.ofSpec)

/-- Whether a rule has a cap on spending with a second counter. -/
def ignoresSecondaryCap (r : Rule α) : Bool :=
  match r.cap? with
  | some cap => cap.mode = .spending && cap.secondary.isSome
  | none => false

/-- The missions that a rule refers to: the one it counts for, and the one of its gate. -/
def missionRefs (spec : RuleSpec α) (r : Rule α) : List String :=
  r.observed?.toList ++ (spec.reqMissionId.bind Text.nonempty?).toList

/-- What there is to find about a rule. -/
def ruleFindings (b : RuleBook α) (conflicted : List String) (spec : RuleSpec α) : List Finding :=
  match b.rule? spec.id with
  | none => []
  | some r =>
    match r.defect? with
    | some defect =>
      if conflicted.contains spec.id then [] else [.unsupportedRule spec.id defect.message]
    | none =>
      (if ignoresSecondaryCap r then [.ignoredSecondaryCap spec.id] else []) ++
        (missionRefs spec r).filterMap fun mission =>
          match b.scheme.mission? mission with
          | some _ => none
          | none => some (.undefinedMission spec.id mission)

/-- What there is to find about the rules: shared counters first, then rule by rule. -/
def rulesFindings (b : RuleBook α) : List Finding :=
  b.conflicts.map (fun (key, ruleIds) => .sharedCapKey key ruleIds) ++
    b.scheme.rules.flatMap (b.ruleFindings (b.conflicts.flatMap (·.2)))

/-- All categories that the scheme speaks of. -/
def knownCategories (b : RuleBook α) : List String :=
  b.resolver.knownCategories ++ b.scheme.categories ++
    b.scheme.allocation.buckets.toList.flatMap (·.2) ++
      b.scheme.tierProgram.toList.map (·.privilegedCategory)

/-- Categories of rules that are not known, if the scheme lists categories at all. -/
def categoryFindings (b : RuleBook α) : List Finding :=
  if b.scheme.categories.isEmpty then []
  else
    let known := b.knownCategories
    b.scheme.rules.flatMap fun spec =>
      (spec.categories.filter fun c => !known.contains c).map (.unknownCategory spec.id)

/-- Cards that refer to rules or currencies that are not there. -/
def cardFindings (b : RuleBook α) : List Finding :=
  b.scheme.cards.flatMap fun card =>
    (card.rules.filter fun id => !b.rules.contains id).map (.danglingRuleRef card.id) ++
      if b.scheme.conversions.contains card.currency then []
      else [.missingConversion card.id card.currency]

/-- Campaigns that refer to rules that are not there. -/
def campaignFindings (b : RuleBook α) : List Finding :=
  b.scheme.campaigns.flatMap fun campaign =>
    (campaign.ruleIds.filter fun id => !b.rules.contains id).map
      (.danglingCampaignRule campaign.id)

/-- Levels without a row in the tier program. -/
def tierFindings (b : RuleBook α) : List Finding :=
  match b.scheme.tierProgram with
  | none => []
  | some program =>
    ((List.range program.maxLevel.toNat).map fun n => UInt8.ofNat (n + 1)).filterMap fun level =>
      match program.row? level with
      | some _ => none
      | none => some (.tierLevelGap program.id level)

/-- Everything there is to find, in order. -/
def findings (b : RuleBook α) : List Finding :=
  b.rulesFindings ++ b.categoryFindings ++ b.cardFindings ++ b.campaignFindings ++ b.tierFindings

end RuleBook

end CardRewards
