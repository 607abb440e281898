import CardRewards.Document.Record
import CardRewards.Document.Toml
import CardRewards.Files.Tree
import CardRewards.Startup.EnvFile

/-!
# Start-up configuration

Where a program finds its scheme and its profiles, and how it logs, is configured in layers: the
names it was started under, then up to three files, then the environment. Later layers win, value by
value. A variable whose name begins with `REWARD_` sets a value; what follows is the path of keys, in
lower case, two underscores standing between keys.

Whatever is not configured has a default. A file that is missing is passed over, and one that makes
no sense makes the whole configuration fail.

In the requirements (§10.4) this is `AppConfig`.
-/

namespace CardRewards

/-- How a service logs. -/
structure Logging where
  serviceName : String
  level : String
  json : Bool
deriving DecidableEq, Repr

namespace Logging

/-- Logging before anything is configured. -/
def default : Logging := ⟨"unknown-service", "info", false⟩

/-- The same logging under a service name. -/
def withServiceName (l : Logging) (name : String) : Logging := { l with serviceName := name }

/-- The same logging on a level, if one is given. -/
def withLevel (l : Logging) (level : Option String) : Logging :=
  { l with level := level.getD l.level }

end Logging

/-- Where schemes and profiles are found, and the display mode for want of another. -/
structure Engine where
  schemePath : String
  profilePath : String
  displayMode : String
deriving DecidableEq, Repr

/-- The places looked at before anything is configured. -/
def Engine.default : Engine := ⟨"config/rules.yaml", "data/profile.json", "cash"⟩

/-- All that is configured at the start. -/
structure Config where
  serviceName : String
  environment : String
  logging : Logging
  engine : Engine
deriving DecidableEq, Repr

namespace Config

/-- The configuration of a program that could not read any. -/
def default : Config := ⟨"", "", .default, .default⟩

/-! ## Layers -/

/-- Whether a character may stand in a key of a path. -/
def isKeyChar (c : Char) : Bool := c.isAlphanum || c = '_' || c = '-'

/-- A name taken apart at double underscores and at points. -/
def splitName : List Char → List (List Char)
  | [] => [[]]
  | '_' :: '_' :: rest => [] :: splitName rest
  | '.' :: rest => [] :: splitName rest
  | c :: rest =>
    match splitName rest with
    | key :: keys => (c :: key) :: keys
    | [] => [[c]]

/-- The name of a variable with points between its keys. -/
def dotted : List Char → List Char
  | [] => []
  | '_' :: '_' :: rest => '.' :: dotted rest
  | c :: rest => c :: dotted rest

/-- The path of keys that a variable sets, if its name begins with the mark. What is no path of keys
is a key by itself. -/
def keyPath? (name : String) : Option (List String) :=
  let mark := "reward_".toList
  let cs := (Text.lower name).toList
  if mark.isPrefixOf cs then
    let name := cs.drop mark.length
    let keys := splitName name
    if keys.all fun key => !key.isEmpty && key.all isKeyChar then some (keys.map String.ofList)
    else some [String.ofList (dotted name)]
  else none

/-- The digits of a whole number behind its sign. -/
def wholeDigits? (cs : List Char) : Option Nat :=
  if !cs.isEmpty && cs.all Char.isDigit then some (Numeral.ofDigits cs) else none

/-- A whole number of sixty-four bits. -/
def whole? (text : String) : Option Node :=
  match text.toList with
  | '-' :: rest => (wholeDigits? rest).bind (Toml.integer? true)
  | '+' :: rest => (wholeDigits? rest).bind (Toml.integer? false)
  | cs => (wholeDigits? cs).bind (Toml.integer? false)

/-- The value of a variable: a truth value or a number if it is written like one, and else a
text. -/
def valueOf (text : String) : Node :=
  match Text.lower text with
  | "true" => .bool true
  | "false" => .bool false
  | _ =>
    match whole? text with
    | some node => node
    | none =>
      match Binary64.read? text with
      | some x => .number (.real x)
      | none => .text text

/-- Settings with those of the environment laid over them. -/
def withEnvironment (node : Node) (env : Environment) : Node :=
  env.toList.foldl
    (fun node (name, value) =>
      match keyPath? name with
      | some path => node.setAt path (valueOf value)
      | none => node)
    node

/-- Settings with those of a file laid over them, if it is there. -/
def withFile? (files : FileTree) (node : Node) (p : Path) : Option Node :=
  if !p.fileName?.any (fun name => (Path.extensionOf? name).isSome) then some node
  else
    match files.find? p with
    | some (.file (.text s)) => (Toml.read? s).map node.overlay
    | some (.file (.bytes _)) => none
    | _ => some node

/-- The file of a name in a directory. -/
def filePath (directory name : String) : Path := .inside directory ⟨name ++ ".toml"⟩

/-- The files that are read, in order. -/
def filePaths (directory environment service : String) : List Path :=
  ["default", environment, service].map (filePath directory)

/-! ## Reading -/

/-- A setting in a record, or its default. -/
def setting? {β : Type} (fields : List (String × Node)) (key : String) (default : β)
    (read : Node → Option β) : Option β :=
  match Node.value? fields key with
  | some node => read node
  | none => some default

/-- The entries of a table of settings. -/
def table? : Node → Option (List (String × Node))
  | .map entries => some entries
  | _ => none

/-- Read how to log. -/
def logging? (node : Node) : Option Logging := do
  let fields ← table? node
  let serviceName ←
    setting? fields "service_name" Logging.default.serviceName Node.settingText?
  let level ← setting? fields "log_level" Logging.default.level Node.settingText?
  let json ← setting? fields "json_logs" Logging.default.json Node.settingBool?
  some ⟨serviceName, level, json⟩

/-- Read where things are found. -/
def engine? (node : Node) : Option Engine := do
  let fields ← table? node
  let schemePath ← setting? fields "rules_path" Engine.default.schemePath Node.settingText?
  let profilePath ← setting? fields "profile_path" Engine.default.profilePath Node.settingText?
  let displayMode ← setting? fields "display_mode" Engine.default.displayMode Node.settingText?
  some ⟨schemePath, profilePath, displayMode⟩

/-- Read a configuration. The service logs under its own name, whatever else was configured. -/
def ofNode? (node : Node) : Option Config := do
  let fields ← table? node
  let serviceName ← setting? fields "service_name" "" Node.settingText?
  let environment ← setting? fields "environment" "" Node.settingText?
  let logging ← setting? fields "observability" .default logging?
  let engine ← setting? fields "engine" .default engine?
  some ⟨serviceName, environment, logging.withServiceName serviceName, engine⟩

/-- The configuration of a service in an environment, from the files of a directory and from
variables. -/
def ofDirectory? (files : FileTree) (env : Environment) (directory environment service : String) :
    Option Config := do
  let names : Node :=
    .map [("service_name", .text service), ("environment", .text environment)]
  let node ← (filePaths directory environment service).foldlM (withFile? files) names
  ofNode? (withEnvironment node env)

/-! ## Start-up -/

/-- The variables at the start: the environment, and those of an environment file that it does not
set. -/
def startEnvironment (files : FileTree) (env : Environment) : Environment :=
  match files.text? ⟨".env"⟩ with
  | some text => EnvFile.apply env text
  | none => env

/-- The environment that a program is started in. -/
def environmentName (env : Environment) : String := (env.get? "REWARD_ENV").getD "development"

/-- The directory that configuration files are in. -/
def directoryName (env : Environment) : String := (env.get? "CONFIG_DIR").getD "config"

/-- The configuration of a service when it starts. -/
def atStart? (files : FileTree) (env : Environment) (service : String) : Option Config :=
  let env := startEnvironment files env
  ofDirectory? files env (directoryName env) (environmentName env) service

end Config

end CardRewards
