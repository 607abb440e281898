import CardRewards.Calendar.Date
import CardRewards.Proofs.Number.Spelling
import Mathlib.Data.Nat.Digits.Defs

/-!
# Dates are read as they are written

A number with zeros in front is scanned as the number, up to what is no digit (`scanNumber?_padded`),
and a sign is written exactly where a year does not fit into its four digits (`scanYear?_yearChars`).
So every day that the calendar has is read back from its text: `Date.read?_text`.
-/

namespace CardRewards

namespace Text

theorem isBlank_eq_false_of_isDigit {c : Char} (h : c.isDigit = true) : isBlank c = false := by
  have hrange : 48 ≤ c.toNat ∧ c.toNat ≤ 57 := by
    simp only [Char.isDigit, Bool.and_eq_true, decide_eq_true_eq] at h
    exact h
  rw [isBlank, List.any_eq_false]
  intro range hmem
  simp only [blankRanges, List.mem_cons, List.not_mem_nil, or_false] at hmem
  rcases hmem with rfl | rfl | rfl | rfl | rfl | rfl | rfl | rfl | rfl | rfl <;>
    simp only [decide_eq_true_eq] <;> omega

/-- What begins with a character that is not blank has no white space in front. -/
theorem trimFront_cons {c : Char} (h : isBlank c = false) (cs : List Char) :
    trimFront (c :: cs) = c :: cs :=
  List.dropWhile_cons_of_neg (by simp [h])

end Text

namespace Date

/-! ## Numbers with zeros in front -/

theorem isDigit_of_mem_padded {width n : Nat} {c : Char} (h : c ∈ padded width n) :
    c.isDigit = true := by
  rcases List.mem_append.mp h with hzero | hdigit
  · rw [List.eq_of_mem_replicate hzero]
    rfl
  · exact Decimal.isDigit_of_mem_digitChars hdigit

theorem padded_ne_nil (width n : Nat) : padded width n ≠ [] := by
  intro h
  exact Decimal.digitChars_ne_nil n (List.append_eq_nil_iff.mp h).2

theorem length_padded_le {width n : Nat} (hpos : 0 < width) (h : n < 10 ^ width) :
    (padded width n).length ≤ width := by
  have hdigits := Nat.toDigits_length 10 n width hpos h
  simp only [padded, List.length_append, List.length_replicate]
  omega

/-- Zeros in front do not change the number that digits write. -/
theorem ofDigits_padded (width n : Nat) : Numeral.ofDigits (padded width n) = n := by
  have hzeros : ∀ k, (List.replicate k '0').foldl
      (fun n c => 10 * n + Numeral.digitValue c) 0 = 0 := by
    intro k
    induction k with
    | zero => rfl
    | succ k ih => exact ih
  rw [Numeral.ofDigits, padded, List.foldl_append, hzeros]
  exact Decimal.ofDigits_digitChars n

/-- A number begins with a digit. -/
theorem exists_padded_eq_cons (width n : Nat) :
    ∃ c tail, padded width n = c :: tail ∧ c.isDigit = true := by
  obtain ⟨c, tail, heq⟩ := List.exists_cons_of_ne_nil (padded_ne_nil width n)
  have hmem : c ∈ padded width n := by
    rw [heq]
    exact List.mem_cons_self ..
  exact ⟨c, tail, heq, isDigit_of_mem_padded hmem⟩

theorem trimFront_padded (width n : Nat) (rest : List Char) :
    Text.trimFront (padded width n ++ rest) = padded width n ++ rest := by
  obtain ⟨c, tail, heq, hdigit⟩ := exists_padded_eq_cons width n
  rw [heq, List.cons_append]
  exact Text.trimFront_cons (Text.isBlank_eq_false_of_isDigit hdigit) _

/-- Digits are scanned up to what is no digit, if there are no more of them than asked for. -/
theorem scanNumber?_padded {most width n : Nat} {rest : List Char}
    (hlength : (padded width n).length ≤ most) (hrest : ∀ c ∈ rest.head?, c.isDigit = false) :
    scanNumber? most (padded width n ++ rest) = some (n, rest) := by
  have htake : ((padded width n ++ rest).take most).takeWhile Char.isDigit = padded width n := by
    rw [List.take_append, List.take_of_length_le hlength,
      List.takeWhile_append_of_pos fun _ => isDigit_of_mem_padded]
    have hnone : (rest.take (most - (padded width n).length)).takeWhile Char.isDigit = [] := by
      cases rest with
      | nil => simp
      | cons c rest =>
        cases most - (padded width n).length with
        | zero => rfl
        | succ k => simp [hrest c rfl]
    rw [hnone, List.append_nil]
  simp [scanNumber?, htake, padded_ne_nil, ofDigits_padded]

/-! ## Parts of dates -/

/-- A year as it is written: signed where four digits do not hold it. -/
def yearChars (year : Int) : List Char :=
  if year < 0 then '-' :: padded 4 year.natAbs
  else if year ≤ 9999 then padded 4 year.natAbs
  else '+' :: padded 4 year.natAbs

theorem toList_text (d : Date) :
    d.text.toList = yearChars d.year ++ '-' :: (padded 2 d.month ++ '-' :: padded 2 d.day) := by
  simp [text, yearChars]

theorem scanDash?_cons (n : Nat) (rest : List Char) :
    scanDash? ('-' :: (padded 2 n ++ rest)) = some (padded 2 n ++ rest) := by
  simp only [scanDash?, Text.trimFront_cons (by decide : Text.isBlank '-' = false),
    trimFront_padded]

/-- A year is scanned from its text, up to the dash behind it. -/
theorem scanYear?_yearChars (year : Int) (rest : List Char) :
    scanYear? (Text.trimFront (yearChars year ++ '-' :: rest)) = some (year, '-' :: rest) := by
  have hdash : ∀ c ∈ ('-' :: rest).head?, c.isDigit = false := by
    rintro c ⟨⟩
    rfl
  have hsigned : scanNumber? (padded 4 year.natAbs ++ '-' :: rest).length
      (padded 4 year.natAbs ++ '-' :: rest) = some (year.natAbs, '-' :: rest) :=
    scanNumber?_padded (by simp) hdash
  unfold yearChars
  split
  next hneg =>
    rw [List.cons_append, Text.trimFront_cons (by decide), scanYear?, hsigned]
    simp only [Option.map_some, Option.some.injEq, Prod.mk.injEq, and_true]
    omega
  next hnonneg =>
    split
    next hfits =>
      have hscan : scanNumber? 4 (padded 4 year.natAbs ++ '-' :: rest) =
          some (year.natAbs, '-' :: rest) :=
        scanNumber?_padded (length_padded_le (by decide) (by omega)) hdash
      rw [trimFront_padded]
      -- the first character is a digit, so it is no sign
      obtain ⟨c, tail, heq, hdigit⟩ := exists_padded_eq_cons 4 year.natAbs
      have hvalue : (year.natAbs : Int) = year := by omega
      rw [heq, List.cons_append] at hscan ⊢
      unfold scanYear?
      split
      next hminus => exact absurd hdigit (by rw [(List.cons.inj hminus).1]; decide)
      next hplus => exact absurd hdigit (by rw [(List.cons.inj hplus).1]; decide)
      next => simp only [hscan, Option.map_some, hvalue]
    next hlong =>
      rw [List.cons_append, Text.trimFront_cons (by decide), scanYear?, hsigned]
      simp only [Option.map_some, Option.some.injEq, Prod.mk.injEq, and_true]
      omega

/-! ## Dates -/

/-- Months and days of the calendar have two digits at most. -/
theorem lt_of_exists? {d : Date} (h : d.exists? = true) : d.month < 100 ∧ d.day < 100 := by
  simp only [exists?, decide_eq_true_eq] at h
  obtain ⟨-, -, hfirst, hlast⟩ := h
  unfold daysIn at hlast
  split at hlast
  next heq =>
    rw [heq]
    split at hlast <;> omega
  all_goals omega

/-- **A day that the calendar has is read back from its text.** -/
theorem read?_text {d : Date} (h : d.exists? = true) : read? d.text = some d := by
  obtain ⟨hmonth, hday⟩ := lt_of_exists? h
  have hdash : ∀ c ∈ ('-' :: padded 2 d.day).head?, c.isDigit = false := by
    rintro c ⟨⟩
    rfl
  have hreadMonth : scanNumber? 2 (padded 2 d.month ++ '-' :: padded 2 d.day) =
      some (d.month, '-' :: padded 2 d.day) :=
    scanNumber?_padded (length_padded_le (by decide) hmonth) hdash
  have hreadDay : scanNumber? 2 (padded 2 d.day ++ []) = some (d.day, []) :=
    scanNumber?_padded (length_padded_le (by decide) hday) nofun
  have hbehind : scanDash? ('-' :: (padded 2 d.day ++ [])) = some (padded 2 d.day ++ []) :=
    scanDash?_cons d.day []
  rw [List.append_nil] at hreadDay hbehind
  have hexists : (⟨d.year, d.month, d.day⟩ : Date).exists? = true := h
  simp only [read?, toList_text, scanYear?_yearChars, scanDash?_cons, hreadMonth, hbehind, hreadDay,
    hexists, Option.bind_eq_bind, Option.bind_some]
  rfl

end Date

end CardRewards
