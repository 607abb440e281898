import CardRewards.CommandLine.Program

/-!
# The executable

The outer layer: it collects the variables and files that a run may read, runs the program, writes
the files that have changed and prints what there is to print. Whether files can be written and
texts printed shows only when it is done, so the run is worked out for the conditions that turn up.
-/

namespace CardRewards.Executable

/-- The variables that a run may read. -/
def variableNames : List String :=
  ["REWARD_ENV", "CONFIG_DIR", "REWARD_SERVICE_NAME", "REWARD_ENVIRONMENT",
    "REWARD_OBSERVABILITY__SERVICE_NAME", "REWARD_OBSERVABILITY__LOG_LEVEL",
    "REWARD_OBSERVABILITY__JSON_LOGS", "REWARD_ENGINE__RULES_PATH", "REWARD_ENGINE__PROFILE_PATH",
    "REWARD_ENGINE__DISPLAY_MODE"]

/-- The environment, as far as a run may read it. -/
def environment : IO Environment := do
  let found ← variableNames.filterMapM fun name => do
    return (← IO.getEnv name).map fun value => (name, value)
  return .ofList found

/-- Whether anything stands at a path. -/
def isThere (p : Path) : IO Bool := do
  try
    (← IO.FS.realPath p.text).pathExists
  catch _ => return false

/-- The files with one more, if it is there. What cannot be read is there without a text. -/
def withFile (files : FileTree) (p : Path) : IO FileTree := do
  try
    let bytes ← IO.FS.readBinFile p.text
    return files.put p (.ofBytes bytes.toList)
  catch _ =>
    return if ← isThere p then files.put p (.bytes []) else files

/-- The files that a run reads. Which these are may depend on the files read before. -/
def collect (args : List String) (env : Environment) : (rounds : Nat) → FileTree → IO FileTree
  | 0, files => return files
  | rounds + 1, files => do
    let files ← (CommandLine.pathsRead args env files).foldlM withFile files
    collect args env rounds files

/-- The texts of files that another state of them does not have. -/
def changed (before after : FileTree) : List (String × String) :=
  after.entries.toList.filterMap fun (place, entry) =>
    match entry with
    | .file (.text text) => if before.entries.get? place = some entry then none else some (place, text)
    | _ => none

/-- Write a file: a temporary one first, which then takes its place. -/
def store (place text : String) : IO Unit := do
  match (Path.mk place).parts.dropLast with
  | [] => pure ()
  | parts => IO.FS.createDirAll (FileTree.placeText (FileTree.origin ⟨place⟩ ++ parts))
  IO.FS.writeFile (place ++ ".tmp") text
  IO.FS.rename (place ++ ".tmp") place

/-- Do something that may fail, and say why it did. -/
def failure? (action : IO Unit) : IO (Option String) := do
  try
    action
    return none
  catch reason => return some (toString reason)

/-- Run the program. -/
def run (args : List String) : IO UInt32 := do
  let env ← environment
  let files ← collect args env 3 .empty
  let outcome := CommandLine.run args env files .good
  let stored ← failure? ((changed files outcome.files).forM fun (place, text) => store place text)
  let disk : ProfileFile.Disk := if stored.isSome then ⟨true, some .moving⟩ else .sound
  let outcome := CommandLine.run args env files ⟨disk, none⟩
  let refusal ← failure? (IO.print outcome.printed *> (← IO.getStdout).flush)
  let outcome := CommandLine.run args env files ⟨disk, refusal⟩
  IO.eprint outcome.complaint
  return .ofNat outcome.exitCode

end CardRewards.Executable

/-- The executable. -/
def main (args : List String) : IO UInt32 := CardRewards.Executable.run args
