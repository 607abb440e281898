import CardRewards.Document.Yaml.Flow

/-!
# Reading a block document

Outside brackets indentation says what belongs together. A line that begins with a key and a colon
is an entry of a map, one that begins with a dash is an item of a list, and their values stand
behind them or on the lines that follow, further in. The items of a list that is the value of a key
may stand as far in as the key.

What stands behind a dash is read as a line of its own that begins where it stands, so maps and
lists may begin behind a dash. Behind a key only a scalar or brackets may begin.

`Yaml.read?` takes a text that is one document. The subset read here has no anchors, tags, literal
blocks or keys that are not scalars; a text that uses them is no document.
-/

namespace CardRewards.Yaml

/-- Whether a line begins with a dash that stands by itself. -/
def isItem (l : Line) : Bool := beginsWith ['-'] l.chars

/-- A quoted or plain scalar on a single line, which may be a key. -/
def keyText? (cs : List Char) : Option (String × List Char) :=
  match cs with
  | '"' :: rest =>
    match doubleLine? [] rest with
    | some (text, .closed rest) => some (String.ofList text, rest)
    | _ => none
  | '\'' :: rest =>
    match singleLine? [] rest with
    | some (text, .closed rest) => some (String.ofList text, rest)
    | _ => none
  | cs =>
    if beginsPlain false cs then
      (plainLine? false false cs).map fun (taken, rest) =>
        (String.ofList (trimGaps taken), rest)
    else none

/-- The key at the front of some characters, and what stands behind its colon. -/
def key? (cs : List Char) : Option (String × List Char) :=
  match keyText? cs with
  | none => none
  | some (key, rest) =>
    match rest.dropWhile isGap with
    | [':'] => some (key, [])
    | ':' :: c :: rest => if isGap c then some (key, c :: rest) else none
    | _ => none

/-- A scalar or brackets, with nothing else on the line where they end. Lines that belong to a plain
scalar are at least so far in. -/
def inline? (least : Nat) (place : Place) : Option (Node × List Line) := do
  let (node, place) ← match place.chars with
    | '[' :: _ => flow? place
    | '{' :: _ => flow? place
    | '"' :: cs =>
      (doubleQuoted? ⟨cs, place.lines⟩).map fun (cs, place) => (.text (String.ofList cs), place)
    | '\'' :: cs =>
      (singleQuoted? ⟨cs, place.lines⟩).map fun (cs, place) => (.text (String.ofList cs), place)
    | cs =>
      if beginsPlain false cs then
        (plain? false (fun line => decide (least ≤ line.indent)) place).map fun (cs, place) =>
          (.plain (String.ofList cs), place)
      else none
  if isLineEnd place.chars then some (node, place.lines) else none

mutual

/-- A value that begins on a line at least so far in; an empty one if there is no such line. -/
def block? : (fuel : Nat) → (least : Nat) → List Line → Option (Node × List Line)
  | 0, _, _ => none
  | fuel + 1, least, lines =>
    match skipEmpty lines with
    | [] => some (.plain "", [])
    | line :: rest =>
      if line.isMarker || line.indent < least then some (.plain "", line :: rest)
      else if isItem line then do
        let (items, rest) ← blockItems? fuel line.indent (line :: rest)
        some (.sequence items, rest)
      else if (key? line.chars).isSome then do
        let (entries, rest) ← blockEntries? fuel line.indent (line :: rest)
        some (.map entries, rest)
      else inline? least ⟨line.chars, rest⟩

/-- The items whose dashes stand at a column. -/
def blockItems? : (fuel : Nat) → (column : Nat) → List Line → Option (List Node × List Line)
  | 0, _, _ => none
  | fuel + 1, column, lines =>
    match skipEmpty lines with
    | [] => some ([], [])
    | line :: rest =>
      if line.indent = column && isItem line && !line.isMarker then do
        let behind := line.chars.drop 1
        let inner := if isLineEnd behind then rest else .ofChars (column + 1) behind :: rest
        let (item, rest) ← block? fuel (column + 1) inner
        let (items, rest) ← blockItems? fuel column rest
        some (item :: items, rest)
      else some ([], line :: rest)

/-- The entries whose keys stand at a column. -/
def blockEntries? :
    (fuel : Nat) → (column : Nat) → List Line → Option (List (String × Node) × List Line)
  | 0, _, _ => none
  | fuel + 1, column, lines =>
    match skipEmpty lines with
    | [] => some ([], [])
    | line :: rest =>
      if line.indent = column && !isItem line && !line.isMarker then do
        let (key, behind) ← key? line.chars
        let (value, rest) ←
          if isLineEnd behind then blockValue? fuel column rest
          else inline? (column + 1) ⟨behind.dropWhile isGap, rest⟩
        let (entries, rest) ← blockEntries? fuel column rest
        some ((key, value) :: entries, rest)
      else some ([], line :: rest)

/-- The value of a key on the lines that follow it. -/
def blockValue? : (fuel : Nat) → (column : Nat) → List Line → Option (Node × List Line)
  | 0, _, _ => none
  | fuel + 1, column, lines =>
    match skipEmpty lines with
    | [] => some (.plain "", [])
    | line :: rest =>
      if line.indent = column && isItem line && !line.isMarker then do
        let (items, rest) ← blockItems? fuel column (line :: rest)
        some (.sequence items, rest)
      else block? fuel (column + 1) (line :: rest)

end

/-- What follows the mark that begins a document: a scalar or brackets on its line, or a value on
the lines that follow. -/
def afterMarker? (fuel : Nat) (cs : List Char) (lines : List Line) : Option (Node × List Line) :=
  if isLineEnd cs then block? fuel 0 lines else inline? 0 ⟨cs.dropWhile isGap, lines⟩

/-- Whether nothing is left but the mark that ends a document. -/
def isStreamEnd (lines : List Line) : Bool :=
  match skipEmpty lines with
  | [] => true
  | line :: rest =>
    line.isMarker && line.chars.head? = some '.' && isLineEnd (line.chars.drop 3) &&
      rest.all fun line => line.isEmpty

/-- The document that a text writes. A text without any is an empty unquoted scalar. -/
def read? (s : String) : Option Node := do
  let lines ← lines? s
  let fuel := 3 * s.length + 3 * lines.length + 3
  let (node, rest) ← match skipEmpty lines with
    | [] => some (.plain "", [])
    | line :: rest =>
      if line.isMarker && line.chars.head? = some '-' then
        afterMarker? fuel (line.chars.drop 3) rest
      else block? fuel 0 (line :: rest)
  if isStreamEnd rest then some node else none

end CardRewards.Yaml
