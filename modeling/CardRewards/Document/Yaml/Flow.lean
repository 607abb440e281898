import CardRewards.Document.Yaml.Scalar

/-!
# Bracketed values

Between brackets and braces indentation says nothing: values are separated by commas, entries have a
colon behind their key, and comments and line breaks may stand between any two of these. A comma may
follow the last value. A value may be left out behind a key, and so may the colon; an entry in
brackets is a map of its own.

The grammar is read off a place by recursive descent; fuel bounds the depth.
-/

namespace CardRewards.Yaml

/-- The place of the next word, behind gaps, comments and line breaks. -/
def nextWord? (cs : List Char) : List Line → Option Place
  | [] => if isLineEnd cs then none else some ⟨cs.dropWhile isGap, []⟩
  | next :: lines =>
    if !isLineEnd cs then some ⟨cs.dropWhile isGap, next :: lines⟩
    else if next.isMarker then none
    else nextWord? next.chars lines

/-- The place of the next word. -/
def Place.next? (place : Place) : Option Place := nextWord? place.chars place.lines

/-- The place behind the colon of a key, which has to stand on the line that the key began on. -/
def afterColon? (start stop : Place) : Option Place :=
  match stop.chars.dropWhile isGap with
  | ':' :: rest =>
    if start.lines.length = stop.lines.length then some ⟨rest, stop.lines⟩ else none
  | _ => none

/-- A quoted or plain scalar between brackets, and whether it is plain. -/
def bracketedScalar? (place : Place) : Option (Bool × String × Place) :=
  match place.chars with
  | '"' :: rest =>
    (doubleQuoted? ⟨rest, place.lines⟩).map fun (cs, place) => (false, String.ofList cs, place)
  | '\'' :: rest =>
    (singleQuoted? ⟨rest, place.lines⟩).map fun (cs, place) => (false, String.ofList cs, place)
  | cs =>
    if beginsPlain true cs then
      (plain? true (fun _ => true) place).map fun (cs, place) => (true, String.ofList cs, place)
    else none

/-- A scalar as a document. -/
def scalarNode (isPlain : Bool) (s : String) : Node := if isPlain then .plain s else .text s

mutual

/-- A value between brackets, at its first character. -/
def bracketed? : (fuel : Nat) → Place → Option (Node × Place)
  | 0, _ => none
  | fuel + 1, ⟨'[' :: cs, lines⟩ => do
    let (items, place) ← items? fuel ⟨cs, lines⟩
    some (.sequence items, place)
  | fuel + 1, ⟨'{' :: cs, lines⟩ => do
    let (entries, place) ← entries? fuel ⟨cs, lines⟩
    some (.map entries, place)
  | _ + 1, place => do
    let (isPlain, s, place) ← bracketedScalar? place
    some (scalarNode isPlain s, place)

/-- The value behind the colon of an entry; there may be none. -/
def entryValue? : (fuel : Nat) → Place → Option (Node × Place)
  | 0, _ => none
  | fuel + 1, place => do
    let place ← place.next?
    match place.chars with
    | ',' :: _ => some (.plain "", place)
    | ']' :: _ => some (.plain "", place)
    | '}' :: _ => some (.plain "", place)
    | _ => bracketed? fuel place

/-- The items up to the closing bracket. -/
def items? : (fuel : Nat) → Place → Option (List Node × Place)
  | 0, _ => none
  | fuel + 1, place => do
    let start ← place.next?
    match start.chars with
    | ']' :: cs => some ([], ⟨cs, start.lines⟩)
    | _ =>
      let (item, place) ← item? fuel start
      let stop ← place.next?
      match stop.chars with
      | ']' :: cs => some ([item], ⟨cs, stop.lines⟩)
      | ',' :: cs =>
        let (items, place) ← items? fuel ⟨cs, stop.lines⟩
        some (item :: items, place)
      | _ => none

/-- An item of a list, which may be a single entry. -/
def item? : (fuel : Nat) → Place → Option (Node × Place)
  | 0, _ => none
  | fuel + 1, start => do
    let (item, stop) ← bracketed? fuel start
    match afterColon? start stop with
    | none => some (item, stop)
    | some place =>
      let key ← item.asText?
      let (value, place) ← entryValue? fuel place
      some (.map [(key, value)], place)

/-- The entries up to the closing brace. -/
def entries? : (fuel : Nat) → Place → Option (List (String × Node) × Place)
  | 0, _ => none
  | fuel + 1, place => do
    let start ← place.next?
    match start.chars with
    | '}' :: cs => some ([], ⟨cs, start.lines⟩)
    | _ =>
      let (_, key, stop) ← bracketedScalar? start
      let (value, place) ← match afterColon? start stop with
        | none => some (.plain "", stop)
        | some place => entryValue? fuel place
      let stop ← place.next?
      match stop.chars with
      | '}' :: cs => some ([(key, value)], ⟨cs, stop.lines⟩)
      | ',' :: cs =>
        let (entries, place) ← entries? fuel ⟨cs, stop.lines⟩
        some ((key, value) :: entries, place)
      | _ => none

end

/-- How much is left at a place, in characters and lines. -/
def Place.size (place : Place) : Nat :=
  place.lines.foldr (fun line size => line.chars.length + 1 + size) place.chars.length

/-- A value in brackets or braces. Every step of the descent takes up a character or follows one
that does. -/
def flow? (place : Place) : Option (Node × Place) := bracketed? (3 * place.size + 3) place

end CardRewards.Yaml
