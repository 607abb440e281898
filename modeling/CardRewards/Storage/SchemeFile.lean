import CardRewards.Document.Json.Reader
import CardRewards.Document.Yaml.Block
import CardRewards.Encoding.Scheme
import CardRewards.Fault
import CardRewards.Files.Tree

/-!
# Scheme files

A scheme is read from a file. The extension of the file says in which format it is written; the file
has to be readable before that is asked.

In the requirements (§6) this is `load_config`.
-/

namespace CardRewards

/-- The formats in which a scheme can be written. -/
inductive SchemeFormat where
  | json
  | yaml
deriving DecidableEq, Repr

namespace SchemeFormat

/-- The format that a path promises. -/
def ofPath? (p : Path) : Option SchemeFormat :=
  match p.extension?.map Text.lower with
  | some "json" => some json
  | some "yaml" => some yaml
  | some "yml" => some yaml
  | _ => none

/-- Read a document. -/
def read? : SchemeFormat → String → Option Node
  | json => Json.read?
  | yaml => Yaml.read?

/-- What is wrong with a text that is no scheme. -/
def fault {α : Type} : SchemeFormat → Fault α
  | json => .malformedJson
  | yaml => .malformedYaml

end SchemeFormat

namespace Scheme

/-- The scheme of a text. -/
def ofText (format : SchemeFormat) (text : String) :
    Except (Fault Binary64) (Scheme Binary64) :=
  match (format.read? text).bind ofNode? with
  | some scheme => .ok scheme
  | none => .error format.fault

/-- The scheme in a file. -/
def load (files : FileTree) (p : Path) : Except (Fault Binary64) (Scheme Binary64) :=
  match files.text? p with
  | none => .error .unreadable
  | some text =>
    match SchemeFormat.ofPath? p with
    | some format => ofText format text
    | none => .error (.unsupportedFormat p.text)

end Scheme

end CardRewards
