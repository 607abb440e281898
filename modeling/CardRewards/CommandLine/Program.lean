import CardRewards.CommandLine.Help
import CardRewards.CommandLine.Run

/-!
# The program

A run of the program as a function: from arguments, environment, files and what the run meets with
to an exit code, what is printed, and the files after it. Arguments are read before anything else. A
configuration that makes no sense counts as none.

The exit code is zero after an answer, one after a fault, and two after arguments that come to no
command. Only answers, help and versions are printed. An answer that cannot be printed is a fault,
though the command has been carried out by then; help and versions that cannot be printed are
passed over.
-/

namespace CardRewards.CommandLine

/-- How a run ends. -/
structure Outcome where
  exitCode : Nat
  /-- What is printed in full. -/
  printed : String
  /-- What is said on the error channel. -/
  complaint : String
  files : FileTree

/-- The configuration at the start, the default one if it makes no sense. -/
def configuration (files : FileTree) (env : Environment) : Config :=
  (Config.atStart? files env programName).getD .default

/-- What the output takes of a text. -/
def Conditions.printedOf (c : Conditions) (text : String) : String :=
  if c.refusal.isSome then "" else text

/-- The outcome of arguments that come to no command. -/
def Interruption.outcome (files : FileTree) (conditions : Conditions) : Interruption → Outcome
  | help command atLength =>
    ⟨0, conditions.printedOf (CommandLine.help command atLength), "", files⟩
  | version command => ⟨0, conditions.printedOf (versionText command), "", files⟩
  | misuse _ => ⟨2, "", CommandLine.help none false, files⟩

/-- Run the program. -/
def run (args : List String) (env : Environment) (files : FileTree) (conditions : Conditions) :
    Outcome :=
  match read args with
  | .error interruption => interruption.outcome files conditions
  | .ok invocation =>
    match invocation.run files (configuration files env).engine conditions with
    | (.ok text, files) => ⟨0, text, "", files⟩
    | (.error fault, files) => ⟨1, "", "Error: " ++ fault.message ++ "\n", files⟩

/-- The paths that a run reads from, so far as the files say. -/
def pathsRead (args : List String) (env : Environment) (files : FileTree) : List Path :=
  let env := Config.startEnvironment files env
  let configs :=
    Config.filePaths (Config.directoryName env) (Config.environmentName env) programName
  match read args with
  | .error _ => []
  | .ok i =>
    let engine := (configuration files env).engine
    ⟨".env"⟩ :: configs ++
      [i.scheme.getD ⟨engine.schemePath⟩, i.profile.getD ⟨engine.profilePath⟩]

end CardRewards.CommandLine
