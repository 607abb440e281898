import CardRewards.Document.Node

/-!
# Lines of a block document

The structure of a block document is in its indentation, so its text is first cut into lines: how
many blanks a line begins with, and the characters behind them. A place in a document is what is
left of a line and the lines that follow it (`Place`).
-/

namespace CardRewards.Yaml

/-- A line: the number of blanks in front, and the rest. -/
structure Line where
  indent : Nat
  chars : List Char
deriving DecidableEq

/-- A place in a document: the rest of a line, and the lines behind it. -/
structure Place where
  chars : List Char
  lines : List Line

/-- Whether a character separates words on a line. -/
def isGap (c : Char) : Bool := c = ' ' || c = '\t'

/-- Whether a character ends a line. -/
def isBreak (c : Char) : Bool :=
  c = '\n' || c = '\r' || c.toNat = 0x85 || c.toNat = 0x2028 || c.toNat = 0x2029

/-- Whether a character may occur in a document at all. -/
def isAllowed (c : Char) : Bool :=
  let n := c.toNat
  n = 0x09 || n = 0x0A || n = 0x0D || (0x20 ≤ n && n ≤ 0x7E) || n = 0x85 ||
    (0xA0 ≤ n && n ≤ 0xD7FF) || (0xE000 ≤ n && n ≤ 0xFFFD && n ≠ 0xFEFF) || 0x10000 ≤ n

/-- The lines of a text, each without its break. -/
def splitLines : List Char → List (List Char)
  | [] => [[]]
  | '\r' :: '\n' :: rest => [] :: splitLines rest
  | c :: rest =>
    if isBreak c then [] :: splitLines rest
    else
      match splitLines rest with
      | line :: lines => (c :: line) :: lines
      | [] => [[c]]

/-- The line of some characters, found at a column. -/
def Line.ofChars (column : Nat) (cs : List Char) : Line :=
  ⟨column + (cs.takeWhile (· = ' ')).length, cs.dropWhile (· = ' ')⟩

/-- The lines of a text. A byte order mark in front is passed over. -/
def lines? (s : String) : Option (List Line) :=
  let cs := match s.toList with
    | c :: rest => if c.toNat = 0xFEFF then rest else c :: rest
    | [] => []
  if cs.all isAllowed then some ((splitLines cs).map (Line.ofChars 0)) else none

/-- Whether a line says nothing. -/
def Line.isEmpty (l : Line) : Bool :=
  match l.chars with
  | [] => true
  | c :: _ => c = '#'

/-- The lines from the first one that says something. -/
def skipEmpty (lines : List Line) : List Line := lines.dropWhile Line.isEmpty

/-- Whether nothing but gaps and a comment is left of a line. -/
def isLineEnd (cs : List Char) : Bool :=
  match cs.dropWhile isGap with
  | [] => true
  | c :: _ => c = '#'

/-- Whether some characters begin with a mark that stands by itself. -/
def beginsWith (mark : List Char) (cs : List Char) : Bool :=
  mark.isPrefixOf cs &&
    match cs.drop mark.length with
    | [] => true
    | c :: _ => isGap c

/-- Whether a line begins or ends a document. -/
def Line.isMarker (l : Line) : Bool :=
  l.indent = 0 && (beginsWith ['-', '-', '-'] l.chars || beginsWith ['.', '.', '.'] l.chars)

end CardRewards.Yaml
