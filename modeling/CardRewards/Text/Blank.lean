/-!
# White space and letter case

Names of modes, kinds and caps are read without regard to the white space around them and to the
case of their ASCII letters. White space is the Unicode property `White_Space`: twenty-five code
points, so that a no-break space or an ideographic space is trimmed and a zero-width space is not.
-/

namespace CardRewards.Text

/-- The code points with the property `White_Space`, as closed ranges in increasing order. -/
def blankRanges : List (Nat × Nat) :=
  [(0x09, 0x0D), (0x20, 0x20), (0x85, 0x85), (0xA0, 0xA0), (0x1680, 0x1680), (0x2000, 0x200A),
    (0x2028, 0x2029), (0x202F, 0x202F), (0x205F, 0x205F), (0x3000, 0x3000)]

/-- Whether a character is white space. -/
def isBlank (c : Char) : Bool :=
  blankRanges.any fun range => decide (range.1 ≤ c.toNat ∧ c.toNat ≤ range.2)

/-- Drop the white space before a text. -/
def trimFront (cs : List Char) : List Char := cs.dropWhile isBlank

/-- Drop the white space behind a text. -/
def trimBack (cs : List Char) : List Char := (cs.reverse.dropWhile isBlank).reverse

/-- A text without the white space around it. -/
def trim (s : String) : String := String.ofList (trimBack (trimFront s.toList))

/-- A capital ASCII letter in lower case; every other character as it is. -/
def lowerChar (c : Char) : Char :=
  if 'A' ≤ c ∧ c ≤ 'Z' then Char.ofNat (c.toNat + 32) else c

/-- A text with its ASCII letters in lower case. -/
def lower (s : String) : String := String.ofList (s.toList.map lowerChar)

/-- A text as names are compared: trimmed, in lower case. -/
def fold (s : String) : String := lower (trim s)

/-- A text that is not empty. -/
def nonempty? (s : String) : Option String := if s.isEmpty then none else some s

end CardRewards.Text
