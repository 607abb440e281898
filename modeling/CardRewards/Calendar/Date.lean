import CardRewards.Number.Literal

/-!
# Dates

Days of the Gregorian calendar, kept for the years from -262143 to 262142. A date is read from
`year-month-day`: the year has up to four digits, or any number of them behind a sign; month and
day have one or two; white space may stand before each part. It is written with a year of four
digits, and with a signed year where four digits do not hold it.
-/

namespace CardRewards

/-- A day of the Gregorian calendar. -/
structure Date where
  year : Int
  month : Nat
  day : Nat
deriving DecidableEq, Repr

namespace Date

/-- Whether a year has a 29 February. -/
def isLeap (year : Int) : Bool :=
  year % 4 == 0 && (year % 100 != 0 || year % 400 == 0)

/-- The number of days of a month; none for what is no month. -/
def daysIn (year : Int) (month : Nat) : Nat :=
  match month with
  | 2 => if isLeap year then 29 else 28
  | 4 | 6 | 9 | 11 => 30
  | 1 | 3 | 5 | 7 | 8 | 10 | 12 => 31
  | _ => 0

/-- Whether the calendar has the day. -/
def exists? (d : Date) : Bool :=
  decide (-262143 ≤ d.year ∧ d.year ≤ 262142 ∧ 1 ≤ d.day ∧ d.day ≤ daysIn d.year d.month)

/-- A number of one to `most` digits at the front of a text. -/
def scanNumber? (most : Nat) (cs : List Char) : Option (Nat × List Char) :=
  let digits := (cs.take most).takeWhile Char.isDigit
  if digits.isEmpty then none else some (Numeral.ofDigits digits, cs.drop digits.length)

/-- A year at the front of a text. -/
def scanYear? : List Char → Option (Int × List Char)
  | '-' :: rest => (scanNumber? rest.length rest).map fun (n, rest) => (-(n : Int), rest)
  | '+' :: rest => (scanNumber? rest.length rest).map fun (n, rest) => ((n : Int), rest)
  | cs => (scanNumber? 4 cs).map fun (n, rest) => ((n : Int), rest)

/-- The dash between two parts of a date. -/
def scanDash? (cs : List Char) : Option (List Char) :=
  match Text.trimFront cs with
  | '-' :: rest => some (Text.trimFront rest)
  | _ => none

/-- Read a date. -/
def read? (text : String) : Option Date := do
  let (year, cs) ← scanYear? (Text.trimFront text.toList)
  let cs ← scanDash? cs
  let (month, cs) ← scanNumber? 2 cs
  let cs ← scanDash? cs
  let (day, cs) ← scanNumber? 2 cs
  let date : Date := ⟨year, month, day⟩
  if (Text.trimFront cs).isEmpty && date.exists? then some date else none

/-- The digits of a number, with zeros in front up to a width. -/
def padded (width n : Nat) : List Char :=
  let digits := Nat.toDigits 10 n
  List.replicate (width - digits.length) '0' ++ digits

/-- Write a date. -/
def text (d : Date) : String :=
  let year :=
    if d.year < 0 then '-' :: padded 4 d.year.natAbs
    else if d.year ≤ 9999 then padded 4 d.year.natAbs
    else '+' :: padded 4 d.year.natAbs
  String.ofList (year ++ '-' :: padded 2 d.month ++ '-' :: padded 2 d.day)

end Date

end CardRewards
