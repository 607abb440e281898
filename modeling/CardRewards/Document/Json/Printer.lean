import CardRewards.Document.Json.Text
import CardRewards.Number.Layout

/-!
# Writing JSON

Documents are written over several lines: each item and each entry on a line of its own, two
blanks further in than what it belongs to. An empty list or map stays on its line. Numbers that are
not finite are written as null.
-/

namespace CardRewards.Json

/-- A number. -/
def numberText : Number → List Char
  | .natural n => Decimal.digitChars n
  | .negative n => '-' :: Decimal.digitChars n
  | .real x => if x.isFinite then x.document.toList else "null".toList

/-- The start of a line at a depth. -/
def newline (depth : Nat) : List Char := '\n' :: List.replicate (2 * depth) ' '

mutual

/-- A document whose first line begins at a depth. -/
def pretty (depth : Nat) : Node → List Char
  | .null => "null".toList
  | .bool b => (if b then "true" else "false").toList
  | .number n => numberText n
  | .text s => quote s
  | .plain s => quote s
  | .unreadable => "null".toList
  | .list items => prettyItems depth items
  | .sequence items => prettyItems depth items
  | .map [] => ['{', '}']
  | .map (entry :: rest) =>
    '{' :: newline (depth + 1) ++ quote entry.1 ++ ':' :: ' ' :: pretty (depth + 1) entry.2 ++
      moreEntries depth rest ++ newline depth ++ ['}']

/-- A list whose first line begins at a depth. -/
def prettyItems (depth : Nat) : List Node → List Char
  | [] => ['[', ']']
  | item :: rest =>
    '[' :: newline (depth + 1) ++ pretty (depth + 1) item ++ moreItems depth rest ++
      newline depth ++ [']']

/-- The items of a list after its first. -/
def moreItems (depth : Nat) : List Node → List Char
  | [] => []
  | item :: rest =>
    ',' :: newline (depth + 1) ++ pretty (depth + 1) item ++ moreItems depth rest

/-- The entries of a map after its first. -/
def moreEntries (depth : Nat) : List (String × Node) → List Char
  | [] => []
  | entry :: rest =>
    ',' :: newline (depth + 1) ++ quote entry.1 ++ ':' :: ' ' :: pretty (depth + 1) entry.2 ++
      moreEntries depth rest

end

/-- The text of a document. -/
def write (node : Node) : String := String.ofList (pretty 0 node)

end CardRewards.Json
