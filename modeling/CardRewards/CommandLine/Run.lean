import CardRewards.CommandLine.Arguments
import CardRewards.Encoding.Report
import CardRewards.Startup.Config
import CardRewards.Storage.ProfileFile
import CardRewards.Storage.SchemeFile

/-!
# Running a command

A command is run on the files: the scheme is loaded, then the profile where it is needed, the
command is carried out, and its answer is printed as a document. Only booking and moving to the next
tier change a file, and that is the profile. A fault says what was being done when it matters to the
user more than the cause.

A run may meet with a disk that fails, or with an output that does not take the answer. The answer
is printed after everything else, so a run that fails at that has changed the profile all the same.

In the requirements (§2, component 11) this is the command line's `CommandRunner`;
`Conditions.print` is its `print_json`.
-/

namespace CardRewards.CommandLine

/-- What was being done when something went wrong. -/
inductive Attempt where
  | loadScheme (path : String)
  | readDefaultMode (text : String)
  | loadProfile
deriving DecidableEq, Repr

/-- The wording of an attempt that failed. -/
def Attempt.message : Attempt → String
  | loadScheme path => "加载规则配置失败: " ++ path
  | readDefaultMode text => "无效的默认展示口径: " ++ text
  | loadProfile => "读取用户档案失败"

/-- Why a command failed. -/
structure CommandFault where
  fault : Fault Binary64
  attempt : Option Attempt
deriving DecidableEq

/-- The wording of the failure: of what was attempted, or else of the fault. -/
def CommandFault.message (f : CommandFault) : String :=
  match f.attempt with
  | some attempt => attempt.message
  | none => f.fault.message

/-- Why a run fails. -/
inductive RunFault where
  /-- The command failed. -/
  | failed (fault : CommandFault)
  /-- The command was carried out, but its answer could not be printed. -/
  | unprinted (reason : String)
deriving DecidableEq

/-- The wording of the failure. -/
def RunFault.message : RunFault → String
  | failed fault => fault.message
  | unprinted reason => reason

/-- What a run meets with. -/
structure Conditions where
  disk : ProfileFile.Disk
  /-- Why the output takes no answer, if it does not. -/
  refusal : Option String
deriving DecidableEq

namespace Conditions

/-- Nothing fails. -/
def good : Conditions := ⟨.sound, none⟩

/-- Print the answer to a command, if it has one. -/
def print (c : Conditions) : Except CommandFault Node → Except RunFault Node
  | .error fault => .error (.failed fault)
  | .ok answer =>
    match c.refusal with
    | some reason => .error (.unprinted reason)
    | none => .ok answer

end Conditions

/-- An outcome in which a fault is reported as a failed attempt. -/
def attempting {β : Type} (attempt : Option Attempt) (result : Except (Fault Binary64) β) :
    Except CommandFault β :=
  result.mapError fun fault => ⟨fault, attempt⟩

/-- The mode that is asked for, or else the default. -/
def modeOr (default : DisplayMode) (asked : Option String) : Except CommandFault DisplayMode :=
  match asked with
  | some text => attempting none (DisplayMode.ofText text)
  | none => .ok default

/-- What commands are run with. -/
structure Desk where
  book : RuleBook Binary64
  mode : DisplayMode
  profile : ProfileFile

namespace Desk

/-- What commands are run with, from the paths of the scheme and the profile. -/
def ofPaths (files : FileTree) (scheme profile : Path) (defaultMode : String) :
    Except CommandFault Desk := do
  let loaded ← attempting (some (.loadScheme scheme.text)) (Scheme.load files scheme)
  let mode ← attempting (some (.readDefaultMode defaultMode)) (DisplayMode.ofText defaultMode)
  .ok ⟨.ofScheme loaded, mode, ⟨files, profile⟩⟩

/-- The stored profile. -/
def loadProfile (d : Desk) (disk : ProfileFile.Disk) : Except CommandFault (Profile Binary64) :=
  attempting (some .loadProfile) (ProfileFile.OnDisk.load ⟨d.profile, disk⟩)

/-- The profile of the files with the place where it is stored. -/
def account (d : Desk) (disk : ProfileFile.Disk) (profile : Profile Binary64) :
    Account ProfileFile.OnDisk Binary64 :=
  ⟨profile, d.profile, disk⟩

/-- The outcome of a change to an account, and the files after it. -/
def settled {β : Type} (write : β → Node)
    (result : Except (Fault Binary64) β × Account ProfileFile.OnDisk Binary64) :
    Except CommandFault Node × FileTree :=
  (attempting none (result.1.map write), result.2.store.file.files)

/-- The answer to a command that changes nothing. -/
def unchanged (d : Desk) (answer : Except CommandFault Node) :
    Except CommandFault Node × FileTree :=
  (answer, d.profile.files)

/-- Quote all cards held. -/
def evaluate (d : Desk) (disk : ProfileFile.Disk) (amount : Binary64) (category : String)
    (mode : Option String) : Except CommandFault Node := do
  let mode ← modeOr d.mode mode
  let profile ← d.loadProfile disk
  let quotes ← attempting none (d.book.quoteAll amount category mode profile)
  .ok (.list (quotes.map Quote.toNode))

/-- The stored profile, and the quote of a card for it. -/
def quoteToCommit (d : Desk) (disk : ProfileFile.Disk) (card : String) (amount : Binary64)
    (category : String) (mode : Option String) :
    Except CommandFault (Profile Binary64 × Quote Binary64) := do
  let mode ← modeOr d.mode mode
  let profile ← d.loadProfile disk
  let quote ← attempting none (d.book.quoteCard card amount category mode profile)
  .ok (profile, quote)

/-- Carry out a command. -/
def carryOut (d : Desk) (disk : ProfileFile.Disk) : Command → Except CommandFault Node × FileTree
  | .evaluate amount category mode => d.unchanged (d.evaluate disk amount category mode)
  | .commit card amount category mode =>
    match d.quoteToCommit disk card amount category mode with
    | .error fault => d.unchanged (.error fault)
    | .ok (profile, quote) => settled Receipt.toNode (d.book.commit (d.account disk profile) quote)
  | .registry => d.unchanged (.ok d.book.scheme.schedule.toNode)
  | .advanceTier =>
    match d.loadProfile disk with
    | .error fault => d.unchanged (.error fault)
    | .ok profile => settled TierStep.toNode (d.book.advanceTier (d.account disk profile))
  | .audit => d.unchanged (.ok (.list (d.book.findings.map Finding.toNode)))

/-- Run a command: carry it out, then print its answer. -/
def run (d : Desk) (conditions : Conditions) (c : Command) : Except RunFault Node × FileTree :=
  let (answer, files) := d.carryOut conditions.disk c
  (conditions.print answer, files)

end Desk

/-- Run what some arguments ask for, with paths and a mode for want of others: the text of the
answer, and the files after it. -/
def Invocation.run (i : Invocation) (files : FileTree) (engine : Engine) (conditions : Conditions) :
    Except RunFault String × FileTree :=
  let scheme := i.scheme.getD ⟨engine.schemePath⟩
  let profile := i.profile.getD ⟨engine.profilePath⟩
  match Desk.ofPaths files scheme profile engine.displayMode with
  | .error fault => (.error (.failed fault), files)
  | .ok desk =>
    let (result, files) := desk.run conditions i.command
    (result.map fun node => Json.write node ++ "\n", files)

end CardRewards.CommandLine
