import CardRewards.Document.Node
import CardRewards.Number.Layout

/-!
# Layered documents

Settings come in layers, and later layers win. Where two layers both have a map the maps are joined
key by key; everywhere else the later value takes the place of the earlier one (`Node.overlay`).

A setting is asked for as a text or as a truth value, however it was written: a number can stand for
its text, and a text for a truth value.
-/

namespace CardRewards

namespace Node

/-- The value of a key, an empty map if there is none. -/
def childOr (entries : List (String × Node)) (key : String) : Node :=
  ((entries.find? (·.1 = key)).map Prod.snd).getD (map [])

/-- Give a key a value: in its place if it is there, and else at the end. -/
def withChild (key : String) (value : Node) : List (String × Node) → List (String × Node)
  | [] => [(key, value)]
  | entry :: rest =>
    if entry.1 = key then (key, value) :: rest else entry :: withChild key value rest

/-- The entries of a map; anything else has none. -/
def entriesOrNone : Node → List (String × Node)
  | map entries => entries
  | _ => []

mutual

/-- A document laid over another. -/
def overlay (base : Node) : Node → Node
  | map entries => map (overlayEntries base.entriesOrNone entries)
  | value => value

/-- Entries laid over others. -/
def overlayEntries (base : List (String × Node)) : List (String × Node) → List (String × Node)
  | [] => base
  | entry :: rest =>
    overlayEntries (withChild entry.1 (overlay (childOr base entry.1) entry.2) base) rest

end

/-- The document that has a value at the end of a path of keys, and nothing else. -/
def nested (value : Node) : (path : List String) → Node
  | [] => value
  | key :: path => map [(key, nested value path)]

/-- A document with a value put at the end of a path of keys. -/
def setAt (node : Node) (path : List String) (value : Node) : Node :=
  node.overlay (nested value path)

/-- The text of a setting. -/
def settingText? : Node → Option String
  | text s => some s
  | bool b => some (if b then "true" else "false")
  | number (.natural n) => some (String.ofList (Decimal.digitChars n))
  | number (.negative n) => some (String.ofList ('-' :: Decimal.digitChars n))
  | number (.real x) => some x.plain
  | _ => none

/-- The truth value of a setting. -/
def settingBool? : Node → Option Bool
  | bool b => some b
  | number (.natural n) => some (n != 0)
  | number (.negative n) => some (n != 0)
  | number (.real x) => some (!x.isZero)
  | text s =>
    let s := Text.lower s
    if ["1", "true", "on", "yes"].contains s then some true
    else if ["0", "false", "off", "no"].contains s then some false
    else none
  | _ => none

end Node

end CardRewards
