import CardRewards.Document.Node

/-!
# Quoted texts in JSON

Between its quotes a text is written with escapes. `quote` escapes the quotation mark, the backslash
and the control characters, and leaves everything else as it is. `unquote?` undoes any escaping that
the format allows.

An escape may name a half of a surrogate pair. Two matching halves are one character; a lone half
is well formed and still stands for nothing, so there are three outcomes: no escape sequence at
all, a sequence without a value, and a text.
-/

namespace CardRewards.Json

/-! ## Writing -/

/-- The digits of a number below sixteen. -/
def hexDigit (n : Nat) : Char :=
  if n < 10 then Char.ofNat ('0'.toNat + n) else Char.ofNat ('a'.toNat + n - 10)

/-- A character between quotes. -/
def escape (c : Char) : List Char :=
  if c = '"' then ['\\', '"']
  else if c = '\\' then ['\\', '\\']
  else if c = '\n' then ['\\', 'n']
  else if c = '\r' then ['\\', 'r']
  else if c = '\t' then ['\\', 't']
  else if c.toNat = 8 then ['\\', 'b']
  else if c.toNat = 12 then ['\\', 'f']
  else if c.toNat < 32 then
    ['\\', 'u', '0', '0', hexDigit (c.toNat / 16), hexDigit (c.toNat % 16)]
  else [c]

/-- A text with its quotes. -/
def quote (s : String) : List Char := '"' :: s.toList.flatMap escape ++ ['"']

/-! ## Reading -/

/-- What a text is made of between its quotes. -/
inductive Piece where
  | char (c : Char)
  /-- A number of sixteen bits, from an escape. -/
  | unit (n : Nat)
deriving DecidableEq

/-- The number that four hexadecimal digits write. -/
def hex4? (a b c d : Char) : Option Nat := Plain.digits? 16 [a, b, c, d]

/-- Take the characters between quotes apart. -/
def pieces? : List Char → Option (List Piece)
  | [] => some []
  | '\\' :: 'u' :: a :: b :: c :: d :: rest => do
    let n ← hex4? a b c d
    let pieces ← pieces? rest
    some (.unit n :: pieces)
  | '\\' :: c :: rest => do
    let c ← match c with
      | '"' => some '"'
      | '\\' => some '\\'
      | '/' => some '/'
      | 'b' => some (Char.ofNat 8)
      | 'f' => some (Char.ofNat 12)
      | 'n' => some '\n'
      | 'r' => some '\r'
      | 't' => some '\t'
      | _ => none
    let pieces ← pieces? rest
    some (.char c :: pieces)
  | c :: rest =>
    if c.toNat < 32 ∨ c = '"' ∨ c = '\\' then none else (pieces? rest).map (.char c :: ·)

/-- Whether a number is the first half of a surrogate pair. -/
def isHighHalf (n : Nat) : Bool := decide (0xD800 ≤ n ∧ n ≤ 0xDBFF)

/-- Whether a number is the second half of a surrogate pair. -/
def isLowHalf (n : Nat) : Bool := decide (0xDC00 ≤ n ∧ n ≤ 0xDFFF)

/-- The text that pieces make up, unless a half of a pair stands alone. -/
def join? : List Piece → Option (List Char)
  | [] => some []
  | .char c :: rest => (join? rest).map (c :: ·)
  | .unit n :: .unit m :: rest =>
    if isHighHalf n then
      if isLowHalf m then
        (join? rest).map (Char.ofNat (0x10000 + (n - 0xD800) * 0x400 + (m - 0xDC00)) :: ·)
      else none
    else if isLowHalf n then none
    else (join? (.unit m :: rest)).map (Char.ofNat n :: ·)
  | .unit n :: rest =>
    if isHighHalf n || isLowHalf n then none else (join? rest).map (Char.ofNat n :: ·)

/-- The characters up to the closing quote, and what follows it. -/
def splitQuote? : List Char → Option (List Char × List Char)
  | [] => none
  | '"' :: rest => some ([], rest)
  | '\\' :: c :: rest =>
    (splitQuote? rest).map fun (inside, rest) => ('\\' :: c :: inside, rest)
  | c :: rest => (splitQuote? rest).map fun (inside, rest) => (c :: inside, rest)

/-- A text behind its opening quote, with what follows the closing one. The text is missing where
the escapes are well formed and stand for nothing. -/
def unquote? (cs : List Char) : Option (Option String × List Char) := do
  let (inside, rest) ← splitQuote? cs
  let pieces ← pieces? inside
  some ((join? pieces).map String.ofList, rest)

end CardRewards.Json
