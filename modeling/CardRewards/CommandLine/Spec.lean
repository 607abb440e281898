/-!
# The command line

The command line has three options of its own and five commands, most of which have options too.
Each option takes a value. What options and commands there are is data (`options`, `commands`):
arguments are read by it, and the help is laid out from it.
-/

namespace CardRewards.CommandLine

/-- What the value of an option is. -/
inductive ValueKind where
  | text
  /-- A path, which may not be empty. -/
  | path
  | number
deriving DecidableEq, Repr

/-- An option. -/
structure OptionSpec where
  long : String
  short : Option Char
  kind : ValueKind
  required : Bool
  about : String
deriving DecidableEq, Repr

/-- A command. -/
structure CommandSpec where
  name : String
  about : String
  options : List OptionSpec
deriving DecidableEq, Repr

/-- The name of the program. -/
def programName : String := "reward-engine"

/-- The version of the program. -/
def version : String := "0.1.0"

/-- What the program does, in a few words. -/
def about : String := "信用卡奖励规则引擎"

/-- What the program does, at length. -/
def description : String :=
  "信用卡奖励规则引擎命令行工具\n\n未指定的路径与展示口径取自配置文件（config/default.toml）及 REWARD_ 环境变量。"

/-- The options in front of a command. -/
def options : List OptionSpec :=
  [⟨"log-level", some 'l', .text, false, "日志级别 (trace, debug, info, warn, error)，覆盖配置文件"⟩,
    ⟨"rules", none, .path, false, "规则配置文件（JSON/YAML）"⟩,
    ⟨"profile", none, .path, false, "用户档案文件（JSON）"⟩]

/-- The options that say what purchase is meant. -/
def purchaseOptions : List OptionSpec :=
  [⟨"amount", some 'a', .number, true, "交易金额"⟩,
    ⟨"category", some 'c', .text, true, "原始交易类别"⟩,
    ⟨"mode", some 'm', .text, false, "展示口径（cash, miles）"⟩]

/-- The commands. -/
def commands : List CommandSpec :=
  [⟨"evaluate", "评估一笔交易，按估值降序输出全部持有卡片的结果", purchaseOptions⟩,
    ⟨"commit", "重新评估指定卡片并记账", ⟨"card", none, .text, true, "卡片 ID"⟩ :: purchaseOptions⟩,
    ⟨"registry", "输出计数周期登记表（JSON）", []⟩,
    ⟨"advance-tier", "等级晋升并清零等级计数", []⟩,
    ⟨"audit", "输出配置审计结果", []⟩]

/-- The command of a name. -/
def command? (name : String) : Option CommandSpec := commands.find? (·.name = name)

end CardRewards.CommandLine
