import CardRewards.Number.Binary64
import CardRewards.Text.Blank

/-!
# Number literals

A `Numeral` is what the digits of a literal say: a sign, a whole number and a power of ten. Two
grammars lead to it. `Numeral.scan?` is the strict one of documents: no plus sign, no needless
leading zero, digits on both sides of a point. `Binary64.read?` is the free one of commands and
settings: either side of the point may lack its digits, a plus sign is allowed, and the infinities
and `NaN` have names.

Every numeral denotes the double nearest to it (`Numeral.toBinary64`); one too large for a double
denotes an infinity.
-/

namespace CardRewards

/-- The digits of a literal: `± mantissa · 10 ^ power`. -/
structure Numeral where
  negative : Bool
  mantissa : Nat
  power : Int
  /-- Whether the literal had neither a point nor an exponent. -/
  whole : Bool
deriving DecidableEq, Repr

namespace Numeral

/-- The value of a digit. -/
def digitValue (c : Char) : Nat := c.toNat - '0'.toNat

/-- The whole number that a row of digits writes. -/
def ofDigits (digits : List Char) : Nat :=
  digits.foldl (fun n c => 10 * n + digitValue c) 0

/-- Split off the digits in front. -/
def spanDigits (cs : List Char) : List Char × List Char :=
  (cs.takeWhile Char.isDigit, cs.dropWhile Char.isDigit)

/-- An exponent behind its letter: an optional sign and at least one digit. -/
def scanExponent? : List Char → Option (Int × List Char)
  | '-' :: rest => signed true rest
  | '+' :: rest => signed false rest
  | rest => signed false rest
where
  signed (negative : Bool) (cs : List Char) : Option (Int × List Char) :=
    match spanDigits cs with
    | ([], _) => none
    | (digits, rest) =>
      let n : Int := ofDigits digits
      some (if negative then -n else n, rest)

/-- The places behind a point, if there is one: at least `least` digits. -/
def scanPlaces? (least : Nat) : List Char → Option (List Char × Bool × List Char)
  | '.' :: rest =>
    let (digits, rest) := spanDigits rest
    if digits.length < least then none else some (digits, true, rest)
  | rest => some ([], false, rest)

/-- The exponent, if there is one. -/
def scanPower? : List Char → Option (Int × Bool × List Char)
  | 'e' :: rest => (scanExponent? rest).map fun (n, rest) => (n, true, rest)
  | 'E' :: rest => (scanExponent? rest).map fun (n, rest) => (n, true, rest)
  | rest => some (0, false, rest)

/-- The number written by the digits before and behind a point, and an exponent. -/
def assemble (negative : Bool) (whole places : List Char) (power : Int) (isWhole : Bool) : Numeral :=
  ⟨negative, ofDigits (whole ++ places), power - places.length, isWhole⟩

/-- Split off a minus sign. -/
def splitSign : List Char → Bool × List Char
  | '-' :: rest => (true, rest)
  | rest => (false, rest)

/-- The digits in front of a point: a single zero, or digits that do not begin with one. -/
def scanWhole? : List Char → Option (List Char × List Char)
  | '0' :: rest => some (['0'], rest)
  | rest =>
    match spanDigits rest with
    | ([], _) => none
    | (digits, rest) => some (digits, rest)

/-- A literal of a document at the front of a text, with what follows it. -/
def scan? (cs : List Char) : Option (Numeral × List Char) := do
  let (negative, cs) := splitSign cs
  let (whole, cs) ← scanWhole? cs
  let (places, pointed, cs) ← scanPlaces? 1 cs
  let (power, raised, cs) ← scanPower? cs
  some (assemble negative whole places power (!pointed && !raised), cs)

/-- The double nearest to a numeral. -/
def toBinary64 (n : Numeral) : Binary64 :=
  let x := Binary64.ofDecimal n.mantissa n.power
  if n.negative then -x else x

end Numeral

namespace Binary64

/-- A number without a sign in the free grammar, the whole text being used up. -/
def readMagnitude? (cs : List Char) : Option Binary64 :=
  let name := String.ofList (cs.map Text.lowerChar)
  if name = "inf" ∨ name = "infinity" then some infinity
  else if name = "nan" then some nan
  else do
    let (whole, cs) := Numeral.spanDigits cs
    let (places, _, cs) ← Numeral.scanPlaces? 0 cs
    if whole.isEmpty && places.isEmpty then none
    else
      let (power, _, cs) ← Numeral.scanPower? cs
      if cs.isEmpty then some (Numeral.assemble false whole places power false).toBinary64 else none

/-- A number in the free grammar. -/
def read? (text : String) : Option Binary64 :=
  match text.toList with
  | '-' :: rest => (readMagnitude? rest).map neg
  | '+' :: rest => readMagnitude? rest
  | cs => readMagnitude? cs

end Binary64

end CardRewards
