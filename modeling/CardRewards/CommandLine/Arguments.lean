import CardRewards.CommandLine.Spec
import CardRewards.Files.Path
import CardRewards.Number.Literal

/-!
# Reading arguments

Arguments are read from left to right. The value of an option stands in the next argument, or in the
same one: behind an equals sign for a long option, directly or behind an equals sign for a short one.
An argument that begins with a dash is never a value of the option before it.

The value of an option is checked when the next option comes or the arguments end (`settle`), not
when it is read. So of two mistakes the one that is found first need not be the one that stands
first. The options in front of a command are settled after the command has been read.

In the requirements (§2, component 11) these are the subcommands `evaluate`, `commit`, `registry`,
`advance-tier` and `audit`.
-/

namespace CardRewards.CommandLine

/-- What is wrong with some arguments. -/
inductive Misuse where
  | unknownArgument
  /-- An option without a value, or a path that is empty. -/
  | missingValue
  /-- A value that is no number. -/
  | badValue
  | repeatedOption
  | missingOption
  /-- A value for an option that takes none. -/
  | needlessValue
  | unknownCommand
  | missingCommand
  /-- No arguments at all. -/
  | nothingGiven
deriving DecidableEq, Repr

/-- Why arguments do not come to a command. -/
inductive Interruption where
  /-- Help is asked for, on the program or on a command. -/
  | help (command : Option String) (atLength : Bool)
  | version (command : Option String)
  | misuse (cause : Misuse)
deriving DecidableEq, Repr

/-- What can stand at some point: options, and commands in front of which they stand. -/
structure Level where
  /-- The command whose options these are. -/
  command : Option String
  options : List OptionSpec
  commands : List CommandSpec

/-- The level in front of a command. -/
def Level.program : Level := ⟨none, CommandLine.options, CommandLine.commands⟩

/-- The level behind a command. -/
def Level.ofCommand (c : CommandSpec) : Level := ⟨some c.name, c.options, []⟩

/-- The options read so far. -/
structure Scan where
  /-- The options that are settled, with their values. -/
  given : List (String × String)
  /-- The option read last, and its value if that has been read. -/
  pending : Option (OptionSpec × Option String)

namespace Scan

/-- Nothing read. -/
def empty : Scan := ⟨[], none⟩

/-- Whether an option waits for its value. -/
def isWaiting (s : Scan) : Bool :=
  match s.pending with
  | some (_, none) => true
  | _ => false

/-- The value given for an option. -/
def value? (s : Scan) (long : String) : Option String := s.given.lookup long

/-- Whether a text can be the value of an option. -/
def check (kind : ValueKind) (value : String) : Except Interruption Unit :=
  match kind with
  | .text => .ok ()
  | .path => if value = "" then .error (.misuse .missingValue) else .ok ()
  | .number =>
    match Binary64.read? value with
    | some _ => .ok ()
    | none => .error (.misuse .badValue)

/-- Give an option a value. -/
def give (s : Scan) (o : OptionSpec) (value : String) : Except Interruption Scan := do
  if (s.value? o.long).isSome then .error (.misuse .repeatedOption)
  else
    check o.kind value
    .ok ⟨s.given ++ [(o.long, value)], none⟩

/-- Settle the option read last. -/
def settle (s : Scan) : Except Interruption Scan :=
  match s.pending with
  | none => .ok s
  | some (_, none) => .error (.misuse .missingValue)
  | some (o, some value) => s.give o value

/-- Begin an option, whose value may have come with it. -/
def begin (s : Scan) (o : OptionSpec) (value : Option String) : Except Interruption Scan := do
  let s ← s.settle
  match value with
  | some value => s.give o value
  | none => .ok { s with pending := some (o, none) }

/-- Stop for help or for the version, once the option read last is settled. -/
def stop (s : Scan) (interruption : Interruption) : Except Interruption Scan := do
  let _ ← s.settle
  .error interruption

/-- Read a long option behind its dashes. -/
def readLong (s : Scan) (level : Level) (cs : List Char) : Except Interruption Scan :=
  let name := String.ofList (cs.takeWhile (· ≠ '='))
  let value := match cs.dropWhile (· ≠ '=') with
    | '=' :: value => some (String.ofList value)
    | _ => none
  match level.options.find? (·.long = name) with
  | some o => s.begin o value
  | none =>
    if name = "help" || name = "version" then
      if value.isSome then .error (.misuse .needlessValue)
      else if name = "help" then s.stop (.help level.command true)
      else s.stop (.version level.command)
    else .error (.misuse .unknownArgument)

/-- Read a short option behind its dash. -/
def readShort (s : Scan) (level : Level) (c : Char) (rest : List Char) :
    Except Interruption Scan :=
  match level.options.find? (·.short = some c) with
  | some o =>
    match rest with
    | [] => s.begin o none
    | '=' :: value => s.begin o (some (String.ofList value))
    | value => s.begin o (some (String.ofList value))
  | none =>
    if c = 'h' then s.stop (.help level.command false)
    else if c = 'V' then s.stop (.version level.command)
    else .error (.misuse .unknownArgument)

end Scan

/-- Whether an argument names a command. -/
def Level.names (level : Level) (arg : String) : Bool :=
  !level.commands.isEmpty && (arg = "help" || level.commands.any (·.name = arg))

/-- What is wrong with an argument that has no place. -/
def Level.strayed (level : Level) : Misuse :=
  if level.commands.isEmpty then .unknownArgument else .unknownCommand

/-- What the arguments behind the command for help ask for. -/
def helpAsked : List String → Interruption
  | [] => .help none true
  | [name] =>
    if Level.program.names name then .help (some name) true else .misuse .unknownCommand
  | _ => .misuse .unknownCommand

/-- What comes of arguments behind two dashes, where nothing has a place. -/
def Level.afterDashes (level : Level) (s : Scan) :
    List String → Except Interruption (Scan × Option (CommandSpec × List String))
  | [] => .ok (s, none)
  | arg :: _ =>
    .error (.misuse (if level.names arg then .unknownArgument else level.strayed))

/-- Read arguments up to a command or up to their end. -/
def Level.read (level : Level) (s : Scan) :
    List String → Except Interruption (Scan × Option (CommandSpec × List String))
  | [] => .ok (s, none)
  | arg :: rest =>
    if !s.isWaiting && level.names arg then
      match level.commands.find? (·.name = arg) with
      | some command => .ok (s, some (command, rest))
      | none => .error (helpAsked rest)
    else
      match arg.toList with
      | ['-', '-'] => level.afterDashes s rest
      | '-' :: '-' :: cs =>
        match s.readLong level cs with
        | .error interruption => .error interruption
        | .ok s => level.read s rest
      | '-' :: c :: cs =>
        match s.readShort level c cs with
        | .error interruption => .error interruption
        | .ok s => level.read s rest
      | _ =>
        match s.pending with
        | some (o, none) => level.read { s with pending := some (o, some arg) } rest
        | _ => .error (.misuse level.strayed)

/-- A command as it was given. -/
inductive Command where
  | evaluate (amount : Binary64) (category : String) (mode : Option String)
  | commit (card : String) (amount : Binary64) (category : String) (mode : Option String)
  | registry
  | advanceTier
  | audit
deriving DecidableEq

/-- The arguments of a run. -/
structure Invocation where
  logLevel : Option String
  /-- The path of the scheme. -/
  scheme : Option Path
  profile : Option Path
  command : Command

/-- The value of an option that has to be there. -/
def Scan.required (s : Scan) (long : String) : Except Interruption String :=
  match s.value? long with
  | some value => .ok value
  | none => .error (.misuse .missingOption)

/-- The command that some options come to. -/
def Scan.command (s : Scan) (name : String) : Except Interruption Command := do
  match name with
  | "evaluate" =>
    let amount ← s.required "amount"
    let category ← s.required "category"
    .ok (.evaluate ((Binary64.read? amount).getD 0) category (s.value? "mode"))
  | "commit" =>
    let card ← s.required "card"
    let amount ← s.required "amount"
    let category ← s.required "category"
    .ok (.commit card ((Binary64.read? amount).getD 0) category (s.value? "mode"))
  | "registry" => .ok .registry
  | "advance-tier" => .ok .advanceTier
  | "audit" => .ok .audit
  | _ => .error (.misuse .unknownCommand)

/-- Read the arguments of a command. -/
def readCommand (c : CommandSpec) (args : List String) : Except Interruption Command := do
  let (s, _) ← (Level.ofCommand c).read .empty args
  let s ← s.settle
  s.command c.name

/-- Read the arguments of a run. -/
def read (args : List String) : Except Interruption Invocation := do
  match ← Level.program.read .empty args with
  | (s, some (c, rest)) =>
    let command ← readCommand c rest
    let s ← s.settle
    .ok ⟨s.value? "log-level", (s.value? "rules").map .mk, (s.value? "profile").map .mk, command⟩
  | (s, none) =>
    let s ← s.settle
    .error (.misuse (if s.given.isEmpty then .nothingGiven else .missingCommand))

end CardRewards.CommandLine
