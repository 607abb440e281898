import CardRewards.Data.Dict
import CardRewards.Text.Blank

/-!
# Environment files

An environment file sets variables that are not set already. Each of its lines is `NAME=value`, with
an optional `export` in front. A value may be quoted in parts: single quotes keep everything as it
is, between double quotes a backslash escapes, and quotes may run over several lines. Outside single
quotes `$NAME` and `${NAME}` stand for a variable. A comment follows white space.

Reading stops at the first line that makes no sense; what was set before stays set.
-/

namespace CardRewards

/-- Variables and their values. -/
abbrev Environment := Dict String

namespace EnvFile

/-! ## Lines -/

/-- Where the end of some characters stands with respect to quotes. -/
inductive QuoteState where
  | complete
  | blank
  | escape
  | double
  | doubleEscape
  | single
  | singleEscape
  | comment
deriving DecidableEq

/-- The state outside quotes after a character that is no blank. -/
def QuoteState.opened (c : Char) : QuoteState :=
  if c = '\\' then .escape else if c = '"' then .double else if c = '\'' then .single else .complete

/-- The state after one more character. -/
def QuoteState.next (c : Char) : QuoteState → QuoteState
  | complete => if Text.isBlank c && c ≠ '\n' && c ≠ '\r' then blank else opened c
  | blank => if c = '#' then comment else opened c
  | escape => complete
  | double => if c = '\\' then doubleEscape else if c = '"' then complete else double
  | doubleEscape => double
  | single => if c = '\\' then singleEscape else if c = '\'' then complete else single
  | singleEscape => single
  | comment => comment

/-- The characters before a comment, and the state at their end. -/
def scan (state : QuoteState) : List Char → List Char × QuoteState
  | [] => ([], state)
  | c :: rest =>
    match state.next c with
    | .comment => ([], .comment)
    | state =>
      let (kept, last) := scan state rest
      (c :: kept, last)

/-- The lines of a text, each with its break. -/
def brokenLines : List Char → List (List Char)
  | [] => []
  | '\n' :: rest => ['\n'] :: brokenLines rest
  | c :: rest =>
    match brokenLines rest with
    | line :: lines => (c :: line) :: lines
    | [] => [[c]]

/-- Lines joined where quotes run on. At the end of the text a quote that is still open makes no
sense, and no more does a blank at the end of a line without a break. -/
def joined (held : List Char) (state : QuoteState) : List (List Char) → List (Option (List Char))
  | [] => if state = .complete then [] else [none]
  | line :: lines =>
    let whole := held ++ line
    if (Text.trimFront whole).head? = some '#' then some [] :: joined [] .complete lines
    else
      match scan state line with
      | (kept, .comment) => some (held ++ kept) :: joined [] .complete lines
      | (_, .complete) => some whole :: joined [] .complete lines
      | (_, state) => joined whole state lines

/-! ## Values -/

/-- What the next character of a value belongs to. -/
inductive ValueState where
  | bare
  | single
  | double
  | escape (inDouble : Bool)
  /-- The name of a variable behind its dollar sign. -/
  | name (inDouble : Bool) (sofar : List Char)
  /-- The name of a variable between braces. -/
  | braced (inDouble : Bool) (sofar : List Char)
  /-- Behind the value. -/
  | finished

/-- The state in or outside double quotes. -/
def ValueState.ofDouble (inDouble : Bool) : ValueState := if inDouble then double else bare

/-- What an escape stands for. -/
def escaped? (c : Char) : Option Char :=
  if ['\\', '\'', '"', '$', ' '].contains c then some c else if c = 'n' then some '\n' else none

/-- The value of a variable; nothing if it is not set. -/
def expand (env : Environment) (name : List Char) : List Char :=
  ((env.get? (String.ofList name)).getD "").toList

/-- Put characters in front of a value that has been read. -/
def prepend (cs : List Char) (value : Option (List Char)) : Option (List Char) :=
  value.map (cs ++ ·)

/-- The value that characters write. -/
def value? (env : Environment) : ValueState → List Char → Option (List Char)
  | .single, [] => none
  | .double, [] => none
  | .braced .., [] => none
  | .escape true, [] => none
  | .name true _, [] => none
  | .name false name, [] => some (expand env name)
  | _, [] => some []
  | .finished, c :: rest =>
    if c = ' ' || c = '\t' then value? env .finished rest
    else if c = '#' then some []
    else none
  | .escape inDouble, c :: rest => do
    let c ← escaped? c
    prepend [c] (value? env (.ofDouble inDouble) rest)
  | .single, c :: rest =>
    if c = '\'' then value? env .bare rest else prepend [c] (value? env .single rest)
  | .name inDouble name, c :: rest =>
    if c.isAlphanum then value? env (.name inDouble (name ++ [c])) rest
    else if c = '{' && name.isEmpty then value? env (.braced inDouble []) rest
    else if c = '$' then prepend (expand env name) (value? env (.name inDouble []) rest)
    else prepend (expand env name ++ [c]) (value? env (.ofDouble inDouble) rest)
  | .braced inDouble name, c :: rest =>
    if c = '}' then prepend (expand env name) (value? env (.ofDouble inDouble) rest)
    else value? env (.braced inDouble (name ++ [c])) rest
  | .double, c :: rest =>
    if c = '$' then value? env (.name true []) rest
    else if c = '"' then value? env .bare rest
    else if c = '\\' then value? env (.escape true) rest
    else prepend [c] (value? env .double rest)
  | .bare, c :: rest =>
    if c = '$' then value? env (.name false []) rest
    else if c = '\'' then value? env .single rest
    else if c = '"' then value? env .double rest
    else if c = '\\' then value? env (.escape false) rest
    else if c = ' ' || c = '\t' then value? env .finished rest
    else prepend [c] (value? env .bare rest)

/-! ## Assignments -/

/-- Whether a name may begin with a character. -/
def beginsName (c : Char) : Bool := c.isAlpha || c = '_'

/-- Whether a character may stand in a name. -/
def isNameChar (c : Char) : Bool := c.isAlphanum || c = '_' || c = '.'

/-- A name, and what follows it and its blanks. -/
def name? (cs : List Char) : Option (String × List Char) :=
  match cs with
  | [] => none
  | c :: _ =>
    if beginsName c then
      some (String.ofList (cs.takeWhile isNameChar), Text.trimFront (cs.dropWhile isNameChar))
    else none

/-- What follows an equals sign. -/
def behindEquals? : List Char → Option (List Char)
  | '=' :: rest => some (Text.trimFront rest)
  | _ => none

/-- The name that a line sets, and the characters of its value. `export` may itself be a name. -/
def target? (cs : List Char) : Option (String × List Char) := do
  let (name, rest) ← name? cs
  match behindEquals? rest with
  | some value => some (name, value)
  | none =>
    if name = "export" then do
      let (name, rest) ← name? rest
      let value ← behindEquals? rest
      some (name, value)
    else none

/-- What a line sets, if it sets anything. -/
def assignment? (env : Environment) (line : List Char) : Option (Option (String × String)) :=
  let cs := Text.trimFront (Text.trimBack line)
  match cs with
  | [] => some none
  | '#' :: _ => some none
  | cs => do
    let (name, rest) ← target? cs
    match rest with
    | [] => some (some (name, ""))
    | '#' :: _ => some (some (name, ""))
    | rest =>
      let value ← value? env .bare rest
      some (some (name, String.ofList value))

/-- The variables after some lines. -/
def applyLines (env : Environment) : List (Option (List Char)) → Environment
  | [] => env
  | none :: _ => env
  | some line :: lines =>
    match assignment? env line with
    | none => env
    | some none => applyLines env lines
    | some (some (name, value)) =>
      applyLines (if env.contains name then env else env.insert name value) lines

/-- The variables after a file has been read. A byte order mark in front is passed over. -/
def apply (env : Environment) (text : String) : Environment :=
  let cs := match text.toList with
    | c :: rest => if c.toNat = 0xFEFF then rest else c :: rest
    | [] => []
  applyLines env (joined [] .complete (brokenLines cs))

end EnvFile

end CardRewards
