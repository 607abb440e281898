import CardRewards.Amount
import CardRewards.Scheme.Card

/-!
# Faults

What can go wrong for a caller: a file that cannot be read, a purchase that cannot be evaluated, a
profile that cannot be stored. Each fault is a cause; its code and its wording are computed from
it. Caps that are used up, rules with a defect and cards without a worth are no faults: they are
part of a quote.

In the requirements (§7) a fault is a `RewardError`.
-/

namespace CardRewards

/-- Why a profile was not stored. -/
inductive StoreFault where
  /-- The store refused it. -/
  | refused (reason : String)
  /-- The files at a path did not allow it. -/
  | blocked (path : String)
deriving DecidableEq, Repr

/-- The wording of the reason. -/
def StoreFault.reason : StoreFault → String
  | refused reason => reason
  | blocked path => path

/-- What can go wrong for a caller. -/
inductive Fault (α : Type) where
  | unreadable
  | malformedJson
  | malformedYaml
  | unsupportedFormat (path : String)
  | cardNotFound (id : String)
  | invalidAmount (amount : α)
  | invalidDisplayMode (text : String)
  | overAllocated (allocated : Nat) (budget : UInt32)
  | tierProgramMissing
  | notStored (cause : StoreFault)
deriving DecidableEq

namespace Fault

variable {α : Type}

/-- The code of a fault. -/
def code : Fault α → String
  | unreadable => "IO_ERROR"
  | malformedJson => "JSON_ERROR"
  | malformedYaml => "YAML_ERROR"
  | unsupportedFormat _ => "UNSUPPORTED_FORMAT"
  | cardNotFound _ => "CARD_NOT_FOUND"
  | invalidAmount _ => "INVALID_AMOUNT"
  | invalidDisplayMode _ => "INVALID_DISPLAY_MODE"
  | overAllocated .. => "INVALID_ALLOCATION"
  | tierProgramMissing => "TIER_PROGRAM_MISSING"
  | notStored _ => "STORE_ERROR"

/-- The wording of a fault. -/
def message [Amount α] : Fault α → String
  | unreadable => "读取文件失败"
  | malformedJson => "JSON 序列化错误"
  | malformedYaml => "YAML 解析错误"
  | unsupportedFormat path => "不支持的配置文件格式: " ++ path
  | cardNotFound id => "卡片不存在: " ++ id
  | invalidAmount amount => "无效的交易金额: " ++ Amount.plain amount
  | invalidDisplayMode text => "无效的展示口径: " ++ text
  | overAllocated allocated budget =>
    "自选类别分配超出额度: 已分配 " ++ toString allocated ++ ", 额度 " ++ toString budget.toNat
  | tierProgramMissing => "未配置等级计划"
  | notStored cause => "档案写入失败: " ++ cause.reason

end Fault

/-- The display mode that a text names. A text that names none is reported as names are compared. -/
def DisplayMode.ofText {α : Type} (text : String) : Except (Fault α) DisplayMode :=
  match DisplayMode.read? text with
  | some mode => .ok mode
  | none => .error (.invalidDisplayMode (Text.fold text))

end CardRewards
