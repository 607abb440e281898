import CardRewards.Document.Yaml.Line

/-!
# Scalars of a block document

A scalar is quoted or plain. A quoted one may run over several lines: a break becomes a blank, and
empty lines between become breaks. Between double quotes a backslash starts an escape, and one at
the end of a line joins it to the next. Between single quotes a quote is written twice.

A plain scalar ends before a comment, before a colon that separates a key from its value, and inside
brackets also before what belongs to the brackets.
-/

namespace CardRewards.Yaml

/-- How far a line of a quoted scalar goes. -/
inductive LineEnd where
  /-- To the closing quote; these characters follow it. -/
  | closed (rest : List Char)
  /-- To the end of the line. -/
  | folded
  /-- To the end of the line, which is joined to the next. -/
  | joined

/-- The text of a line of a quoted scalar, and how far it goes. -/
abbrev QuotedLine := List Char × LineEnd

/-- Put characters in front of a line of a quoted scalar. -/
def QuotedLine.prepend (cs : List Char) (line : QuotedLine) : QuotedLine := (cs ++ line.1, line.2)

/-- What an escape of one letter stands for. -/
def simpleEscape? (c : Char) : Option Char :=
  match c with
  | '0' => some (Char.ofNat 0x00)
  | 'a' => some (Char.ofNat 0x07)
  | 'b' => some (Char.ofNat 0x08)
  | 't' => some '\t'
  | '\t' => some '\t'
  | 'n' => some '\n'
  | 'v' => some (Char.ofNat 0x0B)
  | 'f' => some (Char.ofNat 0x0C)
  | 'r' => some '\r'
  | 'e' => some (Char.ofNat 0x1B)
  | ' ' => some ' '
  | '"' => some '"'
  | '/' => some '/'
  | '\\' => some '\\'
  | 'N' => some (Char.ofNat 0x85)
  | '_' => some (Char.ofNat 0xA0)
  | 'L' => some (Char.ofNat 0x2028)
  | 'P' => some (Char.ofNat 0x2029)
  | _ => none

/-- The character with a number, if there is one. -/
def charOfNumber? (n : Nat) : Option Char :=
  if n < 0xD800 ∨ (0xDFFF < n ∧ n < 0x110000) then some (Char.ofNat n) else none

/-- The character that hexadecimal digits number. -/
def charOfDigits? (digits : List Char) : Option Char :=
  (Plain.digits? 16 digits).bind charOfNumber?

/-- The rest of a line between double quotes. Gaps are kept back until it is known that the line
goes on behind them. -/
def doubleLine? (gaps : List Char) : List Char → Option QuotedLine
  | [] => some ([], .folded)
  | '"' :: rest => some (gaps, .closed rest)
  | ['\\'] => some (gaps, .joined)
  | '\\' :: 'x' :: a :: b :: rest => do
    let c ← charOfDigits? [a, b]
    (doubleLine? [] rest).map (.prepend (gaps ++ [c]))
  | '\\' :: 'u' :: a :: b :: c :: d :: rest => do
    let c ← charOfDigits? [a, b, c, d]
    (doubleLine? [] rest).map (.prepend (gaps ++ [c]))
  | '\\' :: 'U' :: a :: b :: c :: d :: e :: f :: g :: h :: rest => do
    let c ← charOfDigits? [a, b, c, d, e, f, g, h]
    (doubleLine? [] rest).map (.prepend (gaps ++ [c]))
  | '\\' :: c :: rest => do
    let c ← simpleEscape? c
    (doubleLine? [] rest).map (.prepend (gaps ++ [c]))
  | c :: rest =>
    if isGap c then doubleLine? (gaps ++ [c]) rest
    else (doubleLine? [] rest).map (.prepend (gaps ++ [c]))

/-- The rest of a line between single quotes. -/
def singleLine? (gaps : List Char) : List Char → Option QuotedLine
  | [] => some ([], .folded)
  | '\'' :: '\'' :: rest => (singleLine? [] rest).map (.prepend (gaps ++ ['\'']))
  | '\'' :: rest => some (gaps, .closed rest)
  | c :: rest =>
    if isGap c then singleLine? (gaps ++ [c]) rest
    else (singleLine? [] rest).map (.prepend (gaps ++ [c]))

/-- What stands for a break after which some empty lines follow. -/
def foldBreak (emptyLines : Nat) : List Char :=
  if emptyLines = 0 then [' '] else List.replicate emptyLines '\n'

/-- Put characters in front of a scalar that has been read. -/
def prependText (cs : List Char) (scalar : List Char × Place) : List Char × Place :=
  (cs ++ scalar.1, scalar.2)

/-- A quoted scalar on the lines after its first. `lead` stands for the breaks passed so far. -/
def quotedRest? (line? : List Char → Option QuotedLine) (lead : List Char) (emptyLines : Nat) :
    List Line → Option (List Char × Place)
  | [] => none
  | next :: lines =>
    let cs := next.chars.dropWhile isGap
    if next.isMarker then none
    else if cs.isEmpty then
      quotedRest? line? (foldBreak (emptyLines + 1)) (emptyLines + 1) lines
    else
      match line? cs with
      | none => none
      | some (text, .closed rest) => some (lead ++ text, ⟨rest, lines⟩)
      | some (text, .folded) =>
        (quotedRest? line? (foldBreak 0) 0 lines).map (prependText (lead ++ text))
      | some (text, .joined) => (quotedRest? line? [] 0 lines).map (prependText (lead ++ text))

/-- A quoted scalar behind its opening quote. -/
def quoted? (line? : List Char → Option QuotedLine) (place : Place) :
    Option (List Char × Place) :=
  match line? place.chars with
  | none => none
  | some (text, .closed rest) => some (text, ⟨rest, place.lines⟩)
  | some (text, .folded) => (quotedRest? line? (foldBreak 0) 0 place.lines).map (prependText text)
  | some (text, .joined) => (quotedRest? line? [] 0 place.lines).map (prependText text)

/-- A scalar behind its opening double quote. -/
def doubleQuoted? (place : Place) : Option (List Char × Place) := quoted? (doubleLine? []) place

/-- A scalar behind its opening single quote. -/
def singleQuoted? (place : Place) : Option (List Char × Place) := quoted? (singleLine? []) place

/-- The characters that belong to brackets. -/
def isBracketMark (c : Char) : Bool := c = ',' || c = '[' || c = ']' || c = '{' || c = '}'

/-- Whether a plain scalar may begin with these characters. -/
def beginsPlain (inBrackets : Bool) (cs : List Char) : Bool :=
  match cs with
  | [] => false
  | c :: rest =>
    let alone := match rest with
      | [] => true
      | d :: _ => isGap d
    if isGap c then false
    else if c = '-' then !alone
    else if c = '?' || c = ':' then !inBrackets && !alone
    else !([',', '[', ']', '{', '}', '#', '&', '*', '!', '|', '>', '\'', '"', '%', '@',
      Char.ofNat 0x60].contains c)

/-- Split a plain scalar off the front of a line. Fails on a colon that brackets do not allow. -/
def plainLine? (inBrackets : Bool) : (afterGap : Bool) → List Char → Option (List Char × List Char)
  | _, [] => some ([], [])
  | afterGap, c :: rest =>
    let colonEnds := match rest with
      | [] => true
      | d :: _ => isGap d
    let colonClashes := inBrackets && match rest with
      | [] => false
      | d :: _ => isBracketMark d || d = '?'
    if c = '#' && afterGap then some ([], c :: rest)
    else if c = ':' && colonEnds then some ([], c :: rest)
    else if c = ':' && colonClashes then none
    else if inBrackets && isBracketMark c then some ([], c :: rest)
    else (plainLine? inBrackets (isGap c) rest).map fun (taken, rest) => (c :: taken, rest)

/-- Drop the gaps at the end. -/
def trimGaps (cs : List Char) : List Char := (cs.reverse.dropWhile isGap).reverse

/-- The part of a plain scalar on the lines that follow its first. `goesOn` says which lines can
belong to it. -/
def plainRest? (inBrackets : Bool) (goesOn : Line → Bool) (emptyLines : Nat) :
    List Line → Option (List Char × Place)
  | [] => some ([], ⟨[], []⟩)
  | line :: lines =>
    let cs := line.chars.dropWhile isGap
    if cs.isEmpty then
      match plainRest? inBrackets goesOn (emptyLines + 1) lines with
      | some ([], _) => some ([], ⟨[], line :: lines⟩)
      | result => result
    else if line.isMarker || !goesOn line || cs.head? = some '#' then
      some ([], ⟨[], line :: lines⟩)
    else
      match plainLine? inBrackets false cs with
      | none => none
      | some ([], _) => some ([], ⟨[], line :: lines⟩)
      | some (taken, []) =>
        (plainRest? inBrackets goesOn 0 lines).map
          (prependText (foldBreak emptyLines ++ trimGaps taken))
      | some (taken, rest) => some (foldBreak emptyLines ++ trimGaps taken, ⟨rest, lines⟩)

/-- A plain scalar. -/
def plain? (inBrackets : Bool) (goesOn : Line → Bool) (place : Place) :
    Option (List Char × Place) :=
  match plainLine? inBrackets false place.chars with
  | none => none
  | some (taken, []) =>
    (plainRest? inBrackets goesOn 0 place.lines).map (prependText (trimGaps taken))
  | some (taken, rest) => some (trimGaps taken, ⟨rest, place.lines⟩)

end CardRewards.Yaml
