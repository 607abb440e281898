import CardRewards.Document.Node

/-!
# Records

A record is a map with known fields. It may also be written as a list of its fields in the order in
which they are declared, later ones being left out. Fields that are not known are passed over; one
that is known may not be repeated.

A field is read in one of four ways. `required` has to be there. `orElse` has a default for when it
is not. `optional` has the default of no value, and a null counts as none. `nullable` is like
`optional` in a map, but in a list it has to have its place.

A record of several shapes says by a tag which of them it has (`tagged?`); in a list the tag comes
first.
-/

namespace CardRewards

/-- The fields of a record, found by name. -/
structure Record where
  /-- Whether the fields were written with their names. -/
  named : Bool
  slot? : String → Option Node

namespace Record

variable {β : Type}

/-- A field that has to be there. -/
def required (r : Record) (name : String) (read : Node → Option β) : Option β :=
  (r.slot? name).bind read

/-- A field with a default. -/
def orElse (r : Record) (name : String) (default : β) (read : Node → Option β) : Option β :=
  match r.slot? name with
  | some node => read node
  | none => some default

/-- A field that may be missing or null. -/
def optional (r : Record) (name : String) (read : Node → Option β) : Option (Option β) :=
  r.orElse name none (Node.asOption? read)

/-- A field that may be null, and missing if fields have names. -/
def nullable (r : Record) (name : String) (read : Node → Option β) : Option (Option β) :=
  match r.slot? name with
  | some node => node.asOption? read
  | none => if r.named then some none else none

end Record

namespace Node

/-- The value of a key in a map; of several values the last one counts. -/
def value? (entries : List (String × Node)) (key : String) : Option Node :=
  (entries.reverse.find? (·.1 = key)).map Prod.snd

/-- Whether no key of some is repeated. -/
def unrepeated (names : List String) (entries : List (String × Node)) : Bool :=
  names.all fun name => decide ((entries.filter (·.1 = name)).length ≤ 1)

/-- The fields of a map. -/
def namedRecord? (names : List String) (entries : List (String × Node)) : Option Record :=
  if unrepeated names entries then
    some ⟨true, fun name => if names.contains name then value? entries name else none⟩
  else none

/-- The fields of a list. -/
def positionalRecord? (names : List String) (items : List Node) : Option Record :=
  if items.length ≤ names.length then
    some ⟨false, fun name => ((names.zip items).find? (·.1 = name)).map Prod.snd⟩
  else none

/-- The fields of a record. An empty unquoted scalar is a record without fields. -/
def record? (names : List String) : Node → Option Record
  | map entries => namedRecord? names entries
  | list items => positionalRecord? names items
  | plain s => if s.isEmpty then namedRecord? names [] else none
  | _ => none

mutual

/-- Whether everything in a document stands for something. -/
def isReadable : Node → Bool
  | unreadable => false
  | list items => areReadable items
  | sequence items => areReadable items
  | map entries => entriesAreReadable entries
  | _ => true

/-- Whether everything in some documents stands for something. -/
def areReadable : List Node → Bool
  | [] => true
  | item :: rest => item.isReadable && areReadable rest

/-- Whether all values of some entries stand for something. -/
def entriesAreReadable : List (String × Node) → Bool
  | [] => true
  | entry :: rest => entry.2.isReadable && entriesAreReadable rest

end

/-- The tag of a record of several shapes, and the record without it. -/
def tagged? (tag : String) (node : Node) : Option (String × Node) :=
  if !node.isReadable then none
  else
    match node with
    | map entries =>
      if unrepeated [tag] entries then
        ((value? entries tag).bind asText?).map fun name =>
          (name, map (entries.filter (·.1 ≠ tag)))
      else none
    | list (first :: rest) => first.asText?.map fun name => (name, list rest)
    | sequence (first :: rest) => first.asText?.map fun name => (name, list rest)
    | _ => none

end Node

end CardRewards
