import CardRewards.Data.Dict
import CardRewards.Number.Literal

/-!
# Documents

Schemes, profiles and quotes are stored and sent as documents. A `Node` is what both document
formats come to once their text has been read: a tree of lists and maps over scalars.

Two things are told apart that a data model need not tell apart. An unquoted scalar of a block
document is kept as its text (`plain`), because what it means depends on what is asked for: the same
`123` is a number where a number is wanted, and a name where a name is wanted. And a list that may
also stand for a record, field by field, is a `list`; one that may not is a `sequence`.

A node can be read as a scalar of some type (`asText?`, `asAmount?`, and so on), as a list or as a
table. Maps keep their entries as they are written, so that a key that is repeated can be seen.
-/

namespace CardRewards

/-- A number of a document, told apart by how it is written. -/
inductive Number where
  | natural (n : Nat)
  /-- A negative whole number `-n`. -/
  | negative (n : Nat)
  | real (x : Binary64)
deriving DecidableEq

/-- The double that a number stands for. -/
def Number.toBinary64 : Number → Binary64
  | natural n => .ofNat n
  | negative n => -.ofNat n
  | real x => x

/-- A document. -/
inductive Node where
  | null
  | bool (b : Bool)
  | number (n : Number)
  | text (s : String)
  /-- An unquoted scalar, to be read by what is asked for. -/
  | plain (s : String)
  /-- A scalar that is well formed but stands for nothing: a lone half of a surrogate pair, a number
  beyond all doubles. -/
  | unreadable
  | list (items : List Node)
  /-- A list that does not stand for a record. -/
  | sequence (items : List Node)
  | map (entries : List (String × Node))

instance : Inhabited Node := ⟨.null⟩

/-! ## Unquoted scalars -/

namespace Plain

/-- Whether an unquoted scalar says that there is nothing. -/
def isNull (s : String) : Bool := ["", "~", "null", "Null", "NULL"].contains s

/-- The truth value that an unquoted scalar writes. -/
def bool? (s : String) : Option Bool :=
  if ["true", "True", "TRUE"].contains s then some true
  else if ["false", "False", "FALSE"].contains s then some false
  else none

/-- The value of a digit in a base up to sixteen. -/
def digit? (base : Nat) (c : Char) : Option Nat :=
  let n :=
    if c.isDigit then c.toNat - '0'.toNat
    else if 'a' ≤ c ∧ c ≤ 'f' then c.toNat - 'a'.toNat + 10
    else if 'A' ≤ c ∧ c ≤ 'F' then c.toNat - 'A'.toNat + 10
    else base
  if n < base then some n else none

/-- The whole number that digits write in a base; there has to be one. -/
def digits? (base : Nat) (cs : List Char) : Option Nat :=
  if cs.isEmpty then none
  else cs.foldlM (fun n c => (digit? base c).map (base * n + ·)) 0

/-- A whole number: decimal, or in base sixteen, eight or two behind its mark. A plus sign may stand
in front; a decimal number has no needless leading zero. -/
def natural? (s : String) : Option Nat :=
  let unsigned := match s.toList with
    | '+' :: rest => rest
    | cs => cs
  match unsigned with
  | '0' :: 'x' :: rest => digits? 16 rest
  | '0' :: 'o' :: rest => digits? 8 rest
  | '0' :: 'b' :: rest => digits? 2 rest
  | '0' :: _ :: _ => none
  | cs => digits? 10 cs

/-- A number: decimal with an optional point and exponent, an infinity or `NaN`, in the spellings
that begin with a point. -/
def amount? (s : String) : Option Binary64 :=
  if [".inf", ".Inf", ".INF", "+.inf", "+.Inf", "+.INF"].contains s then some .infinity
  else if ["-.inf", "-.Inf", "-.INF"].contains s then some (-.infinity)
  else if [".nan", ".NaN", ".NAN"].contains s then some .nan
  else
    match Binary64.read? s with
    | some x => if x.isFinite then some x else none
    | none => none

end Plain

/-! ## Reading nodes -/

namespace Node

/-- Whether the node says that there is nothing. -/
def isNull : Node → Bool
  | null => true
  | plain s => Plain.isNull s
  | _ => false

/-- A text. -/
def asText? : Node → Option String
  | text s => some s
  | plain s => some s
  | _ => none

/-- A truth value. -/
def asBool? : Node → Option Bool
  | bool b => some b
  | plain s => Plain.bool? s
  | _ => none

/-- A whole number up to a bound. -/
def asNatural? (bound : Nat) (node : Node) : Option Nat :=
  let n? := match node with
    | number (.natural n) => some n
    | plain s => Plain.natural? s
    | _ => none
  n?.filter fun n => decide (n ≤ bound)

/-- A number of eight bits. -/
def asUInt8? (node : Node) : Option UInt8 := (node.asNatural? 255).map .ofNat

/-- A number of thirty-two bits. -/
def asUInt32? (node : Node) : Option UInt32 := (node.asNatural? 4294967295).map .ofNat

/-- A number of sixty-four bits. -/
def asUInt64? (node : Node) : Option UInt64 := (node.asNatural? 18446744073709551615).map .ofNat

/-- An amount. -/
def asAmount? : Node → Option Binary64
  | number n => some n.toBinary64
  | plain s => Plain.amount? s
  | _ => none

/-- The items of a list; an unquoted scalar that says nothing has none. -/
def items? : Node → Option (List Node)
  | list items => some items
  | sequence items => some items
  | plain s => if Plain.isNull s then some [] else none
  | _ => none

/-- The entries of a map; an unquoted scalar that says nothing has none. -/
def entries? : Node → Option (List (String × Node))
  | map entries => some entries
  | plain s => if Plain.isNull s then some [] else none
  | _ => none

/-- A value that may be missing. -/
def asOption? {β : Type} (read : Node → Option β) (node : Node) : Option (Option β) :=
  if node.isNull then some none else (read node).map some

/-- A list of values. -/
def asList? {β : Type} (read : Node → Option β) (node : Node) : Option (List β) :=
  node.items?.bind fun items => items.mapM read

/-- A list of texts. -/
def asTexts? (node : Node) : Option (List String) := node.asList? asText?

/-- A table; of several values for one key the last counts, but each of them has to be readable. -/
def asDict? {β : Type} (read : Node → Option β) (node : Node) : Option (Dict β) :=
  node.entries?.bind fun entries =>
    (entries.mapM fun entry => (read entry.2).map fun value => (entry.1, value)).map Dict.ofList

/-- One of some names. It may also be written as a map of the name to null. -/
def asName? {β : Type} (ofName? : String → Option β) : Node → Option β
  | map [(name, null)] => ofName? name
  | node => node.asText?.bind ofName?

/-! ## Writing nodes -/

/-- An amount; what is not finite is written as nothing. -/
def ofAmount (x : Binary64) : Node := if x.isFinite then number (.real x) else null

/-- A whole number. -/
def ofNat (n : Nat) : Node := number (.natural n)

/-- A value that may be missing. -/
def ofOption {β : Type} (write : β → Node) : Option β → Node
  | some value => write value
  | none => null

/-- A list of texts. -/
def ofTexts (texts : List String) : Node := list (texts.map text)

/-- A table. -/
def ofDict {β : Type} (write : β → Node) (d : Dict β) : Node :=
  map (d.toList.map fun (key, value) => (key, write value))

/-- An entry that is left out when there is nothing to write. -/
def entryIfSome {β : Type} (key : String) (write : β → Node) : Option β → List (String × Node)
  | some value => [(key, write value)]
  | none => []

end Node

end CardRewards
