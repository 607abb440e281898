import CardRewards.Document.Json.Text

/-!
# JSON tokens

A JSON text is a sequence of marks, texts and other scalars with white space between them. White
space is the four characters blank, tab, line feed and carriage return, and nothing else.
-/

namespace CardRewards.Json

/-- A word of a JSON text. -/
inductive Token where
  | leftBrace
  | rightBrace
  | leftBracket
  | rightBracket
  | comma
  | colon
  /-- A quoted text, if it stands for one. -/
  | text (s : Option String)
  /-- A number, a truth value or null. -/
  | scalar (node : Node)

/-- Whether a character may stand between tokens. -/
def isSpace (c : Char) : Bool := c = ' ' || c = '\t' || c = '\n' || c = '\r'

/-- The number of a numeral: whole ones that fit into sixty-four bits keep their digits, the others are
rounded. One too large for a double stands for nothing. -/
def numberNode (n : Numeral) : Node :=
  if n.whole && decide (n.mantissa < 18446744073709551616) then
    if !n.negative then .number (.natural n.mantissa)
    else if n.mantissa = 0 then .number (.real (-0))
    else .number (.negative n.mantissa)
  else
    let x := n.toBinary64
    if x.isFinite then .number (.real x) else .unreadable

/-- Split a word off the front. -/
def dropWord? (word : String) (cs : List Char) : Option (List Char) :=
  if word.toList.isPrefixOf cs then some (cs.drop word.length) else none

/-- The token at the front of a text that does not begin with white space. -/
def token? : List Char → Option (Token × List Char)
  | [] => none
  | '{' :: rest => some (.leftBrace, rest)
  | '}' :: rest => some (.rightBrace, rest)
  | '[' :: rest => some (.leftBracket, rest)
  | ']' :: rest => some (.rightBracket, rest)
  | ',' :: rest => some (.comma, rest)
  | ':' :: rest => some (.colon, rest)
  | '"' :: rest => (unquote? rest).map fun (s, rest) => (.text s, rest)
  | 't' :: rest => (dropWord? "rue" rest).map (.scalar (.bool true), ·)
  | 'f' :: rest => (dropWord? "alse" rest).map (.scalar (.bool false), ·)
  | 'n' :: rest => (dropWord? "ull" rest).map (.scalar .null, ·)
  | cs => (Numeral.scan? cs).map fun (n, rest) => (.scalar (numberNode n), rest)

/-- The tokens of a text, at most so many. -/
def tokensWithin? : (fuel : Nat) → List Char → Option (List Token)
  | 0, _ => none
  | fuel + 1, cs =>
    match cs.dropWhile isSpace with
    | [] => some []
    | cs => do
      let (token, rest) ← token? cs
      let tokens ← tokensWithin? fuel rest
      some (token :: tokens)

/-- The tokens of a text. Each of them takes up a character, so the length of the text bounds their
number. -/
def tokens? (cs : List Char) : Option (List Token) := tokensWithin? (cs.length + 1) cs

end CardRewards.Json
