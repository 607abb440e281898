import CardRewards.Document.Layer

/-!
# Reading TOML

A document is a sequence of lines: the head of a table, or a key with a value that belongs to the
table above it. Keys may be dotted, and parts of them quoted. A value is a text, a truth value, a
whole number or a decimal one; arrays, inline tables and dates are not read.

Nothing may be said twice (`clashes`): no value for a key that has one, no table opened again or in
place of a value, no dotted key that reaches into a table opened by its head.
-/

namespace CardRewards.Toml

/-- What a line says. -/
inductive Statement where
  | nothing
  /-- The head of a table. -/
  | table (path : List String)
  | entry (path : List String) (value : Node)

/-- Whether a character separates words on a line. -/
def isGap (c : Char) : Bool := c = ' ' || c = '\t'

/-- Drop the gaps in front. -/
def skipGaps (cs : List Char) : List Char := cs.dropWhile isGap

/-- Whether a character may stand in a text or a comment. -/
def isTextChar (c : Char) : Bool := c = '\t' || (32 ≤ c.toNat && c.toNat ≠ 127)

/-- Whether nothing but a comment is left of a line. -/
def isLineEnd (cs : List Char) : Bool :=
  match skipGaps cs with
  | [] => true
  | c :: rest => c = '#' && rest.all isTextChar

/-- Whether a character may stand in a key without quotes. -/
def isBare (c : Char) : Bool := c.isAlphanum || c = '-' || c = '_'

/-- Put a character in front of a text that has been read. -/
def prependChar (c : Char) (text : List Char × List Char) : List Char × List Char :=
  (c :: text.1, text.2)

/-- The character with a number given in hexadecimal digits. -/
def escaped? (digits : List Char) : Option Char := do
  let n ← Plain.digits? 16 digits
  if n < 0xD800 ∨ (0xDFFF < n ∧ n < 0x110000) then some (Char.ofNat n) else none

/-- A text behind its opening double quote, and what follows its closing one. -/
def basic? : List Char → Option (List Char × List Char)
  | [] => none
  | '"' :: rest => some ([], rest)
  | '\\' :: 'u' :: a :: b :: c :: d :: rest => do
    let e ← escaped? [a, b, c, d]
    (basic? rest).map (prependChar e)
  | '\\' :: 'U' :: a :: b :: c :: d :: e :: f :: g :: h :: rest => do
    let e ← escaped? [a, b, c, d, e, f, g, h]
    (basic? rest).map (prependChar e)
  | '\\' :: c :: rest => do
    let e ← match c with
      | 'b' => some (Char.ofNat 8)
      | 't' => some '\t'
      | 'n' => some '\n'
      | 'f' => some (Char.ofNat 12)
      | 'r' => some '\r'
      | '"' => some '"'
      | '\\' => some '\\'
      | _ => none
    (basic? rest).map (prependChar e)
  | c :: rest => if c = '\\' || !isTextChar c then none else (basic? rest).map (prependChar c)

/-- A text behind its opening single quote, and what follows its closing one. -/
def literal? : List Char → Option (List Char × List Char)
  | [] => none
  | '\'' :: rest => some ([], rest)
  | c :: rest => if isTextChar c then (literal? rest).map (prependChar c) else none

/-- A part of a key, and what follows it. -/
def keyPart? : List Char → Option (String × List Char)
  | '"' :: rest => (basic? rest).map fun (cs, rest) => (String.ofList cs, rest)
  | '\'' :: rest => (literal? rest).map fun (cs, rest) => (String.ofList cs, rest)
  | cs =>
    let name := cs.takeWhile isBare
    if name.isEmpty then none else some (String.ofList name, cs.dropWhile isBare)

/-- A key, at most so many parts of it, and what follows it and its gaps. -/
def key? : (fuel : Nat) → List Char → Option (List String × List Char)
  | 0, _ => none
  | fuel + 1, cs => do
    let (part, rest) ← keyPart? (skipGaps cs)
    match skipGaps rest with
    | '.' :: rest =>
      let (parts, rest) ← key? fuel rest
      some (part :: parts, rest)
    | rest => some ([part], rest)

/-- Digits of a base without the underscores that separate them; each of those stands between two
digits. -/
def withoutSeparators? (base : Nat) : List Char → Option (List Char)
  | [] => some []
  | [c] => if c = '_' then none else some [c]
  | c :: '_' :: d :: rest =>
    if (Plain.digit? base c).isSome && (Plain.digit? base d).isSome then
      (withoutSeparators? base (d :: rest)).map (c :: ·)
    else none
  | c :: rest => if c = '_' then none else (withoutSeparators? base rest).map (c :: ·)

/-- A number of sixty-four bits with its sign. -/
def integer? (negative : Bool) (n : Nat) : Option Node :=
  if negative then
    if n = 0 then some (.number (.natural 0))
    else if n ≤ 0x8000000000000000 then some (.number (.negative n))
    else none
  else if n < 0x8000000000000000 then some (.number (.natural n))
  else none

/-- A number behind its sign. -/
def unsigned? (negative : Bool) (cs : List Char) : Option Node :=
  let sign (x : Binary64) : Binary64 := if negative then -x else x
  if cs = "inf".toList then some (.number (.real (sign .infinity)))
  else if cs = "nan".toList then some (.number (.real (sign .nan)))
  else do
    let digits ← withoutSeparators? 10 cs
    if digits.head? = some '-' then none
    else
      match ← Numeral.scan? digits with
      | (n, []) =>
        if n.whole then integer? negative n.mantissa
        else some (.number (.real (sign n.toBinary64)))
      | _ => none

/-- A number. -/
def number? : List Char → Option Node
  | '-' :: rest => unsigned? true rest
  | '+' :: rest => unsigned? false rest
  | '0' :: 'x' :: rest => do integer? false (← Plain.digits? 16 (← withoutSeparators? 16 rest))
  | '0' :: 'o' :: rest => do integer? false (← Plain.digits? 8 (← withoutSeparators? 8 rest))
  | '0' :: 'b' :: rest => do integer? false (← Plain.digits? 2 (← withoutSeparators? 2 rest))
  | cs => unsigned? false cs

/-- A value that fills a line up to its end. -/
def value? : List Char → Option Node
  | '"' :: rest => finished? (basic? rest)
  | '\'' :: rest => finished? (literal? rest)
  | cs =>
    let word := (cs.takeWhile fun c => !isGap c && c ≠ '#')
    if !isLineEnd (cs.drop word.length) then none
    else if word = "true".toList then some (.bool true)
    else if word = "false".toList then some (.bool false)
    else number? word
where
  finished? : Option (List Char × List Char) → Option Node
    | some (cs, rest) => if isLineEnd rest then some (.text (String.ofList cs)) else none
    | none => none

/-- What a line says. -/
def statement? (line : List Char) : Option Statement :=
  let cs := skipGaps line
  if isLineEnd cs then some .nothing
  else
    match cs with
    | '[' :: rest => do
      match ← key? (rest.length + 1) rest with
      | (path, ']' :: rest) => if isLineEnd rest then some (.table path) else none
      | _ => none
    | cs => do
      match ← key? (cs.length + 1) cs with
      | (path, '=' :: rest) => (value? (skipGaps rest)).map (.entry path)
      | _ => none

/-- The lines of a text. -/
def lines : List Char → List (List Char)
  | [] => [[]]
  | '\r' :: '\n' :: rest => [] :: lines rest
  | '\n' :: rest => [] :: lines rest
  | c :: rest =>
    match lines rest with
    | line :: others => (c :: line) :: others
    | [] => [[c]]

/-- What has been read of a document. -/
structure Progress where
  /-- The table that entries belong to. -/
  table : List String
  tables : List (List String)
  /-- The values, each by the path of its table and the path from there. -/
  entries : List (List String × List String)
  node : Node

/-- Whether a value stands at a path or above it. -/
def Progress.isTaken (p : Progress) (path : List String) : Bool :=
  p.entries.any fun (table, entry) => (table ++ entry).isPrefixOf path

/-- Whether a value stands at a path or below it. -/
def Progress.isUsed (p : Progress) (path : List String) : Bool :=
  p.entries.any fun (table, entry) => path.isPrefixOf (table ++ entry)

/-- Whether a table stands at a path or below it. -/
def Progress.isOpen (p : Progress) (path : List String) : Bool :=
  p.tables.any fun table => path.isPrefixOf table

/-- Whether a dotted key leads through a path from a table above it. -/
def Progress.isDotted (p : Progress) (path : List String) : Bool :=
  p.entries.any fun (table, entry) =>
    decide (table.length < path.length) && path.isPrefixOf (table ++ entry)

/-- The paths between a table and a value in it. -/
def between (table path : List String) : List (List String) :=
  ((List.range path.length).drop 1).map fun n => table ++ path.take n

/-- Whether a statement says again what has been said. -/
def Progress.clashes (p : Progress) : Statement → Bool
  | .nothing => false
  | .table path => p.tables.contains path || p.isTaken path || p.isDotted path
  | .entry path _ =>
    p.isTaken (p.table ++ path) || p.isUsed (p.table ++ path) || p.isOpen (p.table ++ path) ||
      (between p.table path).any p.isOpen

/-- Take a statement into account. -/
def Progress.add (p : Progress) : Statement → Progress
  | .nothing => p
  | .table path =>
    { p with table := path, tables := path :: p.tables, node := p.node.setAt path (.map []) }
  | .entry path value =>
    { p with
      entries := (p.table, path) :: p.entries
      node := p.node.setAt (p.table ++ path) value }

/-- The document that a text writes. A byte order mark in front is passed over. -/
def read? (s : String) : Option Node := do
  let cs := match s.toList with
    | c :: rest => if c.toNat = 0xFEFF then rest else c :: rest
    | [] => []
  let statements ← (lines cs).mapM statement?
  let progress ← statements.foldlM
    (fun (p : Progress) statement => if p.clashes statement then none else some (p.add statement))
    ⟨[], [], [], .map []⟩
  some progress.node

end CardRewards.Toml
