import CardRewards.Scheme.Basic

/-!
# A sample scheme

Four cards that between them use every kind of rule but one, and settings that go with them; and the
smallest scheme for some rules, in which one card has them all and a unit of its currency is worth
one in cash. Rates are written as ratios of whole numbers, so the samples exist for every type of
amounts.

The cards of the sample:

* `everyday` grants a base rate, and a higher one on dining that takes its place;
* `online_plus` grants the base rate and more on online spending, up to a limit of spending;
* `dining_reward` grants a high rate on dining, up to a limit of rewards in a quarter;
* `voyage` grants miles: by tier, by the weights put on buckets, and behind a mission.

These are the `sample_config` and `sample_settings` that the program is tried out on, and its
`single_card_config`.
-/

namespace CardRewards

namespace Sample

variable {α : Type} [Amount α]

/-- A whole amount. -/
def whole (n : UInt32) : α := Amount.ofWeight n

/-- So many thousandths. -/
def thousandths (n : UInt32) : α := whole n / whole 1000

/-- The tier program: two levels, with travel favoured. -/
def tierProgram : TierProgram α where
  id := "voyage"
  maxLevel := 2
  levels := [⟨1, thousandths 20, whole 500⟩, ⟨2, thousandths 40, whole 1000⟩]
  privilegedCategory := "travel"
  rewardUnit := some "voyage_points"
  period := none

/-- The rules of the sample. -/
def rules : List (RuleSpec α) :=
  [{ RuleSpec.base "base" (thousandths 4) with label := some "基础回赠" },
    { (RuleSpec.flat "everyday_dining" (thousandths 50) ["dining"]).replacing with
      label := some "餐饮 5%" },
    { (RuleSpec.flat "online_bonus" (thousandths 40) ["online"]).capped .spending
        "online_plus_online" (whole 10000) with
      label := some "网购 4%" },
    { (RuleSpec.flat "dining_reward" (thousandths 100) ["dining"]).capped .reward "k"
        (whole 300) with
      period := some ⟨.quarterly, .statementDay 15⟩ },
    RuleSpec.ofKind "voyage_tier" .tieredCapped,
    (RuleSpec.ofKind "voyage_flex" .flexibleAllocation).perUnit (thousandths 10) none,
    { RuleSpec.ofKind "voyage_mission" .missionObserver with
      missionId := some "spend_8000"
      categories := ["dining", "online", "travel"] },
    (RuleSpec.flat "voyage_bonus" (thousandths 30) ["travel"]).gatedByMission "spend_8000"
      (whole 8000)]

/-- The cards of the sample. -/
def cards : List Card :=
  [.held "everyday" "cash" ["base", "everyday_dining"],
    .held "online_plus" "cash" ["base", "online_bonus"],
    .held "dining_reward" "cash" ["dining_reward"],
    .held "voyage" "miles"
      ["base", "voyage_tier", "voyage_flex", "voyage_mission", "voyage_bonus"]]

/-- The sample scheme. -/
def scheme : Scheme α :=
  { (Scheme.empty : Scheme α) with
    cards
    rules
    categories := ["dining", "online", "travel", "overseas", "online_travel"]
    hierarchy :=
      (Hierarchy.empty.withParent "online_travel" "online").withParent "online_travel" "travel"
    conversions := .ofList [("cash", ⟨1, 0⟩), ("miles", ⟨0, 1⟩)]
    allocation :=
      ⟨5, .ofList [(.dining, ["dining"]), (.online, ["online"]), (.travel, ["travel"])]⟩
    missions := [⟨"spend_8000", some "累计消费 8000", some (whole 8000), none⟩]
    tierProgram := some tierProgram }

/-- Settings for the sample: the first tier, and weights on travel and dining. -/
def settings : Settings :=
  { Settings.empty with
    tierLevel := 1
    allocation := .ofList [(.travel, 3), (.dining, 2)] }

/-- The smallest scheme for some rules. -/
def single (rules : List (RuleSpec α)) : Scheme α :=
  { (Scheme.empty : Scheme α) with
    cards := [.held "card" "cash" (rules.map (·.id))]
    rules
    conversions := .ofList [("cash", ⟨1, 0⟩)] }

end Sample

end CardRewards
