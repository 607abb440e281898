import CardRewards.Number.Shortest

/-!
# Numbers as texts

Three ways to write a double. `plain` is for messages: the shortest digits, never an exponent and
no `.0`. `fixed` is for notes on amounts: a set number of places, the exact value rounded with ties
to even. `document` is for stored and printed documents: the shortest digits, with at least one
place when the first digit stands for a power of ten from `10 ^ -5` to `10 ^ 15`, and with a signed
exponent otherwise.
-/

namespace CardRewards

namespace Decimal

/-- The digits of a whole number. -/
def digitChars (n : Nat) : List Char := Nat.toDigits 10 n

/-- So many zeros. -/
def zeros (n : Nat) : List Char := List.replicate n '0'

/-- Put a point before the last places. -/
def withPoint (digits : List Char) (places : Nat) : List Char :=
  let padded := zeros (places + 1 - digits.length) ++ digits
  padded.take (padded.length - places) ++ '.' :: padded.drop (padded.length - places)

/-- All digits written out: no exponent, no point unless there are places behind it. -/
def positional (d : Decimal) : List Char :=
  if 0 ≤ d.power then digitChars (d.digits * Nat.pow 10 d.power.toNat)
  else withPoint (digitChars d.digits) (-d.power).toNat

/-- One digit before the point, and an exponent with its sign. -/
def scientific (d : Decimal) : List Char :=
  let digits := digitChars d.digits
  let lead := d.power + (digits.length : Int) - 1
  let mantissa := match digits with
    | [] => []
    | [c] => [c]
    | c :: rest => c :: '.' :: rest
  mantissa ++ 'e' :: (if lead < 0 then '-' else '+') :: digitChars lead.natAbs

/-- The power of ten of the first digit; zero counts as one. -/
def lead (d : Decimal) : Int :=
  if d.digits = 0 then 0 else d.power + (digitCount d.digits : Int) - 1

end Decimal

namespace Binary64

/-- A sign before the text of a magnitude. -/
def signed (x : Binary64) (magnitude : List Char) : String :=
  String.ofList (if x.isNegative then '-' :: magnitude else magnitude)

/-- The texts of what is no finite number, and otherwise a text for the magnitude. -/
def written (x : Binary64) (finite : Binary64 → List Char) : String :=
  if x.isNaN then "NaN"
  else if x.isFinite then x.signed (finite x)
  else x.signed "inf".toList

/-- The shortest digits without an exponent. -/
def plain (x : Binary64) : String := x.written fun x => x.shortest.positional

/-- A fraction rounded to a whole number, a tie to the even one. -/
def Ratio.round (r : Ratio) : Nat :=
  let below := r.num / r.den
  let rest := r.num % r.den
  if 2 * rest < r.den then below
  else if 2 * rest = r.den then below + below % 2
  else below + 1

/-- The exact value rounded to a number of places, a tie to the even digit. -/
def fixed (places : Nat) (x : Binary64) : String :=
  x.written fun x =>
    let units := ((Ratio.scaled x.significand x.exponent).shift (-(places : Int))).round
    Decimal.withPoint (Decimal.digitChars units) places

/-- The text of a finite double in a document. -/
def document (x : Binary64) : String :=
  let d := x.shortest
  x.signed <|
    if -5 ≤ d.lead ∧ d.lead < 16 then
      if 0 ≤ d.power then d.positional ++ ['.', '0'] else d.positional
    else d.scientific

end Binary64

end CardRewards
