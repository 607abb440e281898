import CardRewards.Document.Json.Token

/-!
# Reading JSON

The grammar is read off the tokens by recursive descent. `Json.read?` takes a text that is one
value and nothing besides. It is strict about the grammar and lenient about values: a text or a
number without a value becomes an unreadable node, which matters only to those who ask for it. The
key of an entry is always asked for.
-/

namespace CardRewards.Json

mutual

/-- A value at the front of some tokens. -/
def value? : (fuel : Nat) → List Token → Option (Node × List Token)
  | 0, _ => none
  | _ + 1, .text (some s) :: rest => some (.text s, rest)
  | _ + 1, .text none :: rest => some (.unreadable, rest)
  | _ + 1, .scalar node :: rest => some (node, rest)
  | _ + 1, .leftBracket :: .rightBracket :: rest => some (.list [], rest)
  | fuel + 1, .leftBracket :: rest => do
    let (items, rest) ← items? fuel rest
    some (.list items, rest)
  | _ + 1, .leftBrace :: .rightBrace :: rest => some (.map [], rest)
  | fuel + 1, .leftBrace :: rest => do
    let (entries, rest) ← entries? fuel rest
    some (.map entries, rest)
  | _ + 1, _ => none

/-- The items of a list up to its closing bracket; there is at least one. -/
def items? : (fuel : Nat) → List Token → Option (List Node × List Token)
  | 0, _ => none
  | fuel + 1, tokens => do
    let (item, rest) ← value? fuel tokens
    match rest with
    | .rightBracket :: rest => some ([item], rest)
    | .comma :: rest =>
      let (items, rest) ← items? fuel rest
      some (item :: items, rest)
    | _ => none

/-- The entries of a map up to its closing brace; there is at least one. -/
def entries? : (fuel : Nat) → List Token → Option (List (String × Node) × List Token)
  | fuel + 1, .text (some key) :: .colon :: tokens => do
    let (value, rest) ← value? fuel tokens
    match rest with
    | .rightBrace :: rest => some ([(key, value)], rest)
    | .comma :: rest =>
      let (entries, rest) ← entries? fuel rest
      some ((key, value) :: entries, rest)
    | _ => none
  | _, _ => none

end

/-- The document that a text writes. -/
def read? (s : String) : Option Node := do
  let tokens ← tokens? s.toList
  match ← value? (tokens.length + 1) tokens with
  | (node, []) => some node
  | _ => none

end CardRewards.Json
