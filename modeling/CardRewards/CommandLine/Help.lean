import CardRewards.CommandLine.Spec
import CardRewards.Text.Blank

/-!
# Help

The help says what there is to do: what the program or command is for, how it is called, its commands
and its options. Names stand in one column and what they mean in another; at length, what an option
means stands below it. Help on the program is laid out at length if it is asked for by the long
option.
-/

namespace CardRewards.CommandLine

/-- A text filled up with blanks to a width. -/
def padTo (width : Nat) (s : String) : String :=
  s ++ String.ofList (List.replicate (width - s.length) ' ')

/-- Rows of two columns, the second beginning in one line. -/
def columns (rows : List (String × String)) : List String :=
  let width := (rows.map fun row => row.1.length).foldl max 0
  rows.map fun row => "  " ++ padTo width row.1 ++ "  " ++ row.2

/-- The name of the value of an option. -/
def valueName (o : OptionSpec) : String :=
  "<" ++ String.ofList (o.long.toList.map fun c => if c = '-' then '_' else c.toUpper) ++ ">"

/-- An option as it is listed. -/
def listed (short : Option Char) (long : String) : String :=
  match short with
  | some c => "-" ++ c.toString ++ ", --" ++ long
  | none => "    --" ++ long

/-- The options that every level has. -/
def commonRows (seeMore : String) : List (String × String) :=
  [(listed (some 'h') "help", "Print help" ++ seeMore),
    (listed (some 'V') "version", "Print version")]

/-- The rows of options. -/
def optionRows (os : List OptionSpec) (seeMore : String) : List (String × String) :=
  (os.map fun o => (listed o.short o.long ++ " " ++ valueName o, o.about)) ++ commonRows seeMore

/-- The rows of commands. -/
def commandRows : List (String × String) :=
  (commands.map fun c => (c.name, c.about)) ++
    [("help", "Print this message or the help of the given subcommand(s)")]

/-- Rows with what they mean below them. -/
def stacked (rows : List (String × String)) : List String :=
  ["\n\n".intercalate (rows.map fun row => "  " ++ row.1 ++ "\n          " ++ row.2)]

/-- Help on the program. -/
def programHelp (atLength : Bool) : String :=
  let optionLines :=
    if atLength then stacked (optionRows options " (see a summary with '-h')")
    else columns (optionRows options " (see more with '--help')")
  "\n".intercalate <|
    [if atLength then description else about, "",
      "Usage: " ++ programName ++ " [OPTIONS] <COMMAND>", "", "Commands:"] ++
      columns commandRows ++ ["", "Options:"] ++ optionLines ++ [""]

/-- How a command is called. -/
def usage (c : CommandSpec) : String :=
  let required := c.options.filter (·.required)
  let optional := if c.options.any (!·.required) then " [OPTIONS]" else ""
  "Usage: " ++ programName ++ " " ++ c.name ++ optional ++
    String.join (required.map fun o => " --" ++ o.long ++ " " ++ valueName o)

/-- Help on a command. -/
def commandHelp (c : CommandSpec) : String :=
  "\n".intercalate <|
    [c.about, "", usage c, "", "Options:"] ++ columns (optionRows c.options "") ++ [""]

/-- Help on the command for help. -/
def helpHelp : String :=
  "\n".intercalate
    ["Print this message or the help of the given subcommand(s)", "",
      "Usage: " ++ programName ++ " help [COMMAND]...", "", "Arguments:",
      "  [COMMAND]...  Print help for the subcommand(s)", ""]

/-- Help on the program or on a command. -/
def help (command : Option String) (atLength : Bool) : String :=
  match command with
  | none => programHelp atLength
  | some name =>
    match command? name with
    | some c => commandHelp c
    | none => helpHelp

/-- The version of the program or of a command. -/
def versionText (command : Option String) : String :=
  match command with
  | none => programName ++ " " ++ version ++ "\n"
  | some name => programName ++ "-" ++ name ++ " " ++ version ++ "\n"

end CardRewards.CommandLine
