import CardRewards.Number.Layout
import CardRewards.Number.Literal

/-!
# Numerals as documents spell them

All numerals of documents have the same parts: a sign, digits, digits behind a point, an exponent. A
`Spelling` is these parts, well formed, and is scanned as the numeral that it spells, whatever ends
it (`Spelling.scan?_chars`). Whole numbers are written in this way (`Numeral.scan?_digitChars`), and
so are doubles, always with a point or an exponent (`Binary64.exists_spelling`).

That the digits of a double are enough to tell it from all others is a statement about rounding,
which `Binary64.ReadsBack` makes of one double, and which can be decided.
-/

namespace CardRewards

namespace Decimal

theorem isDigit_of_mem_digitChars {n : Nat} {c : Char} (h : c ∈ digitChars n) :
    c.isDigit = true :=
  Nat.isDigit_of_mem_toDigits (by decide) (by decide) h

@[simp] theorem ofDigits_digitChars (n : Nat) : Numeral.ofDigits (digitChars n) = n :=
  Nat.ofDigitChars_ten_toDigits

theorem digitChars_ne_nil (n : Nat) : digitChars n ≠ [] := Nat.toDigits_ne_nil

/-- No digits of a positive number begin with a zero. -/
theorem head?_digitChars_ne {n : Nat} (h : 0 < n) : (digitChars n).head? ≠ some '0' := by
  induction n using Nat.strongRecOn with
  | ind n ih =>
    unfold digitChars
    rw [Nat.toDigits_eq_if (by decide)]
    split
    next hlt =>
      have hall : ∀ n < 10, 0 < n → [n.digitChar].head? ≠ some '0' := by decide
      exact hall n hlt h
    next hge =>
      rw [List.head?_append, Option.or_of_isSome (by simp)]
      exact ih (n / 10) (by omega) (by omega)

end Decimal

namespace Numeral

/-- Whether nothing that follows a numeral belongs to it. -/
def Ends (rest : List Char) : Prop :=
  ∀ c ∈ rest.head?, c.isDigit = false ∧ c ≠ '.' ∧ c ≠ 'e' ∧ c ≠ 'E'

theorem spanDigits_append {digits rest : List Char} (h : ∀ c ∈ digits, c.isDigit = true)
    (hrest : ∀ c ∈ rest.head?, c.isDigit = false) :
    spanDigits (digits ++ rest) = (digits, rest) := by
  unfold spanDigits
  rw [List.takeWhile_append_of_pos h, List.dropWhile_append_of_pos h]
  cases rest with
  | nil => simp
  | cons c rest => simp [hrest c rfl]

/-- A numeral begins with a digit or with its sign. -/
theorem head_of_scan? {cs : List Char} {scanned : Numeral × List Char}
    (h : scan? cs = some scanned) :
    ∃ c tail, cs = c :: tail ∧ (c.isDigit = true ∨ c = '-') := by
  cases cs with
  | nil => exact nomatch h
  | cons c tail =>
    refine ⟨c, tail, rfl, Decidable.byContradiction fun hneither => ?_⟩
    obtain ⟨hdigit, hminus⟩ := not_or.mp hneither
    -- without a sign to take off, the digits would have to begin at once
    have hsign : splitSign (c :: tail) = (false, c :: tail) := by
      unfold splitSign
      split
      next heq => exact absurd (List.cons.inj heq).1 hminus
      next => rfl
    have hwhole : scanWhole? (c :: tail) = none := by
      unfold scanWhole?
      split
      next heq => exact absurd (by rw [(List.cons.inj heq).1]; rfl) hdigit
      next => simp [spanDigits, hdigit]
    simp [scan?, hsign, hwhole] at h

end Numeral

/-- A numeral as a document spells it. -/
structure Spelling where
  negative : Bool
  whole : List Char
  /-- The digits behind the point, if there is one. -/
  places : Option (List Char)
  /-- The exponent, if there is one. -/
  power : Option Int
  whole_digits : ∀ c ∈ whole, c.isDigit = true
  whole_front : whole = ['0'] ∨ whole ≠ [] ∧ whole.head? ≠ some '0'
  places_digits : ∀ digits ∈ places, digits ≠ [] ∧ ∀ c ∈ digits, c.isDigit = true

namespace Spelling

/-- An exponent with its letter and its sign. -/
def powerChars (n : Int) : List Char :=
  'e' :: (if n < 0 then '-' else '+') :: Decimal.digitChars n.natAbs

/-- The digits and what follows them. -/
def unsigned (s : Spelling) : List Char :=
  s.whole ++ (s.places.elim [] ('.' :: ·) ++ s.power.elim [] powerChars)

/-- The characters of a numeral. -/
def chars (s : Spelling) : List Char :=
  if s.negative then '-' :: s.unsigned else s.unsigned

/-- The numeral that is spelled. -/
def numeral (s : Spelling) : Numeral :=
  .assemble s.negative s.whole (s.places.getD []) (s.power.getD 0)
    (s.places.isNone && s.power.isNone)

theorem scanSigned_digitChars (negative : Bool) (n : Nat) {rest : List Char}
    (h : Numeral.Ends rest) :
    Numeral.scanExponent?.signed negative (Decimal.digitChars n ++ rest) =
      some (if negative then -(n : Int) else n, rest) := by
  unfold Numeral.scanExponent?.signed
  rw [Numeral.spanDigits_append (fun _ => Decimal.isDigit_of_mem_digitChars)
    (fun c hc => (h c hc).1)]
  split
  next hnil => exact absurd (congrArg Prod.fst hnil) (Decimal.digitChars_ne_nil n)
  next heq =>
    obtain ⟨rfl, rfl⟩ := Prod.mk.inj heq
    rw [Decimal.ofDigits_digitChars]

theorem scanPower?_chars (power : Option Int) {rest : List Char} (h : Numeral.Ends rest) :
    Numeral.scanPower? (power.elim [] powerChars ++ rest) =
      some (power.getD 0, power.isSome, rest) := by
  cases power with
  | none =>
    cases rest with
    | nil => rfl
    | cons c rest =>
      obtain ⟨-, -, he, hE⟩ := h c rfl
      simp [Numeral.scanPower?, he, hE]
  | some n =>
    have hread : Numeral.scanExponent? ((if n < 0 then '-' else '+') ::
        (Decimal.digitChars n.natAbs ++ rest)) = some (n, rest) := by
      split
      next hneg =>
        have hvalue : -(n.natAbs : Int) = n := by omega
        rw [Numeral.scanExponent?, scanSigned_digitChars true n.natAbs h, if_pos rfl, hvalue]
      next hneg =>
        have hvalue : (n.natAbs : Int) = n := by omega
        rw [Numeral.scanExponent?, scanSigned_digitChars false n.natAbs h,
          if_neg Bool.false_ne_true, hvalue]
    show (Numeral.scanExponent? ((if n < 0 then '-' else '+') ::
      (Decimal.digitChars n.natAbs ++ rest))).map _ = _
    rw [hread]
    rfl

/-- No digit and no point stands in front of an exponent. -/
theorem head?_powerChars (power : Option Int) {rest : List Char} (h : Numeral.Ends rest) :
    ∀ c ∈ (power.elim [] powerChars ++ rest).head?, c.isDigit = false ∧ c ≠ '.' := by
  intro c hc
  cases power with
  | none => exact ⟨(h c hc).1, (h c hc).2.1⟩
  | some n =>
    obtain rfl : 'e' = c := by simpa [powerChars] using hc
    decide

theorem scanPlaces?_chars (s : Spelling) {rest : List Char} (h : Numeral.Ends rest) :
    Numeral.scanPlaces? 1 (s.places.elim [] ('.' :: ·) ++ (s.power.elim [] powerChars ++ rest)) =
      some (s.places.getD [], s.places.isSome, s.power.elim [] powerChars ++ rest) := by
  have hfollow := head?_powerChars s.power h
  cases hplaces : s.places with
  | none =>
    revert hfollow
    cases s.power.elim [] powerChars ++ rest with
    | nil => intro; rfl
    | cons c cs =>
      intro hfollow
      simp [Numeral.scanPlaces?, (hfollow c rfl).2]
  | some digits =>
    obtain ⟨hne, hdigits⟩ := s.places_digits digits hplaces
    have hlength : ¬ digits.length < 1 := by
      have := List.length_pos_iff.mpr hne
      omega
    simp [Numeral.scanPlaces?, Numeral.spanDigits_append hdigits fun c hc => (hfollow c hc).1, hne]

/-- What follows the digits in front of the point does not begin with a digit. -/
theorem head?_places (s : Spelling) {rest : List Char} (h : Numeral.Ends rest) :
    ∀ c ∈ (s.places.elim [] ('.' :: ·) ++ (s.power.elim [] powerChars ++ rest)).head?,
      c.isDigit = false := by
  intro c hc
  cases hplaces : s.places with
  | none =>
    rw [hplaces] at hc
    exact (head?_powerChars s.power h c hc).1
  | some digits =>
    obtain rfl : '.' = c := by simpa [hplaces] using hc
    decide

/-- No sign stands in front of the digits. -/
theorem unsigned_ne_minus (s : Spelling) (rest cs : List Char) :
    s.unsigned ++ rest ≠ '-' :: cs := by
  intro heq
  have hne : s.whole ≠ [] := by
    rcases s.whole_front with h | h
    · simp [h]
    · exact h.1
  obtain ⟨c, front, hwhole⟩ := List.exists_cons_of_ne_nil hne
  have hdigit := s.whole_digits c (by simp [hwhole])
  obtain rfl : c = '-' := by simpa [unsigned, hwhole] using congrArg List.head? heq
  exact absurd hdigit (by decide)

theorem splitSign_chars (s : Spelling) (rest : List Char) :
    Numeral.splitSign (s.chars ++ rest) = (s.negative, s.unsigned ++ rest) := by
  unfold chars
  cases s.negative with
  | true => rfl
  | false =>
    rw [if_neg Bool.false_ne_true]
    unfold Numeral.splitSign
    split
    next cs heq => exact absurd heq (s.unsigned_ne_minus rest cs)
    next => rfl

theorem scanWhole?_unsigned (s : Spelling) {rest : List Char} (h : Numeral.Ends rest) :
    Numeral.scanWhole? (s.unsigned ++ rest) =
      some (s.whole, s.places.elim [] ('.' :: ·) ++ (s.power.elim [] powerChars ++ rest)) := by
  have hspan := Numeral.spanDigits_append s.whole_digits (s.head?_places h)
  unfold unsigned
  rw [List.append_assoc, List.append_assoc]
  rcases s.whole_front with hzero | ⟨hne, hfront⟩
  · -- a zero stands alone, whatever follows it
    rw [hzero]
    rfl
  · obtain ⟨c, front, hwhole⟩ := List.exists_cons_of_ne_nil hne
    rw [hwhole] at hspan hfront ⊢
    unfold Numeral.scanWhole?
    split
    next heq => exact absurd (congrArg List.head? heq) hfront
    next => simp only [hspan]

/-- **A spelled numeral is scanned as it was spelled**, whatever ends it. -/
theorem scan?_chars (s : Spelling) {rest : List Char} (h : Numeral.Ends rest) :
    Numeral.scan? (s.chars ++ rest) = some (s.numeral, rest) := by
  unfold Numeral.scan?
  simp only [s.splitSign_chars, s.scanWhole?_unsigned h, s.scanPlaces?_chars h,
    scanPower?_chars s.power h, Option.bind_eq_bind, Option.bind_some]
  cases hp : s.places <;> cases hq : s.power <;> simp [numeral, hp, hq]

end Spelling

/-! ## Doubles in documents -/

namespace Decimal

theorem front_digitChars (n : Nat) :
    digitChars n = ['0'] ∨ digitChars n ≠ [] ∧ (digitChars n).head? ≠ some '0' := by
  rcases Nat.eq_zero_or_pos n with rfl | h
  · exact .inl (Nat.toDigits_zero 10)
  · exact .inr ⟨digitChars_ne_nil n, head?_digitChars_ne h⟩

/-- Digits with a point before the last of them are spelled with places. -/
theorem exists_spelling_withPoint (negative : Bool) (n : Nat) {places : Nat} (h : 0 < places) :
    ∃ s : Spelling, s.negative = negative ∧ s.unsigned = withPoint (digitChars n) places ∧
      s.numeral.whole = false := by
  have hpositive : 0 < (digitChars n).length := List.length_pos_iff.mpr (digitChars_ne_nil n)
  unfold withPoint
  generalize hpadded : zeros (places + 1 - (digitChars n).length) ++ digitChars n = padded
  have hdigits : ∀ c ∈ padded, c.isDigit = true := by
    intro c hc
    rw [← hpadded] at hc
    rcases List.mem_append.mp hc with hzero | hdigit
    · rw [List.eq_of_mem_replicate hzero]
      rfl
    · exact isDigit_of_mem_digitChars hdigit
  have hlength : padded.length = places + 1 - (digitChars n).length + (digitChars n).length := by
    simp [← hpadded, zeros]
  refine ⟨⟨negative, padded.take (padded.length - places),
    some (padded.drop (padded.length - places)), none, ?_, ?_, ?_⟩, rfl, ?_, rfl⟩
  · exact fun c hc => hdigits c (List.mem_of_mem_take hc)
  · rcases Nat.lt_or_ge places (digitChars n).length with hlong | hshort
    · -- there are digits enough, so nothing was put in front of them
      have hzero : places + 1 - (digitChars n).length = 0 := by omega
      have heq : padded = digitChars n := by simp [← hpadded, hzero, zeros]
      have htake : padded.length - places ≠ 0 := by omega
      refine .inr ⟨by simpa [heq] using ⟨by omega, digitChars_ne_nil n⟩, ?_⟩
      rw [List.head?_take, if_neg htake, heq]
      rcases front_digitChars n with hone | hfront
      · rw [hone] at hlong
        simp at hlong
        omega
      · exact hfront.2
    · -- zeros were put in front of the digits, and one of them stands in front of the point
      obtain ⟨k, hk⟩ : ∃ k, places + 1 - (digitChars n).length = k + 1 :=
        ⟨places - (digitChars n).length, by omega⟩
      have hone : padded.length - places = 1 := by omega
      left
      rw [hone, ← hpadded, hk]
      rfl
  · rintro digits ⟨⟩
    refine ⟨List.ne_nil_of_length_pos ?_, fun c hc => hdigits c (List.mem_of_mem_drop hc)⟩
    rw [List.length_drop]
    omega
  · simp [Spelling.unsigned]

theorem exists_spelling_positional (negative : Bool) (d : Decimal) :
    ∃ s : Spelling, s.negative = negative ∧
      s.unsigned = (if 0 ≤ d.power then d.positional ++ ['.', '0'] else d.positional) ∧
      s.numeral.whole = false := by
  unfold positional
  split
  next =>
    refine ⟨⟨negative, digitChars (d.digits * Nat.pow 10 d.power.toNat), some ['0'], none,
      fun _ => isDigit_of_mem_digitChars, front_digitChars _, ?_⟩, rfl, rfl, rfl⟩
    rintro _ ⟨⟩
    exact ⟨List.cons_ne_nil _ _, fun c hc => by rw [List.mem_singleton.mp hc]; rfl⟩
  next h => exact exists_spelling_withPoint negative d.digits (by omega)

theorem exists_spelling_scientific (negative : Bool) (d : Decimal) :
    ∃ s : Spelling, s.negative = negative ∧ s.unsigned = d.scientific ∧
      s.numeral.whole = false := by
  obtain ⟨c, rest, hdigits⟩ := List.exists_cons_of_ne_nil (digitChars_ne_nil d.digits)
  have hmem : ∀ a ∈ c :: rest, a.isDigit = true := fun a ha =>
    isDigit_of_mem_digitChars (hdigits ▸ ha)
  have hfront : [c] = ['0'] ∨ [c] ≠ [] ∧ [c].head? ≠ some '0' := by
    by_cases hc : c = '0' <;> simp [hc]
  have hc : ∀ a ∈ [c], a.isDigit = true := by simpa using hmem c (List.mem_cons_self ..)
  unfold scientific
  rw [hdigits]
  cases rest with
  | nil =>
    exact ⟨⟨negative, [c], none, some (d.power + 1 - 1), hc, hfront, nofun⟩, rfl, rfl, rfl⟩
  | cons a rest =>
    refine ⟨⟨negative, [c], some (a :: rest),
      some (d.power + ((c :: a :: rest).length : Int) - 1), hc, hfront, ?_⟩, rfl, ?_, rfl⟩
    · rintro _ ⟨⟩
      exact ⟨List.cons_ne_nil _ _, fun b hb => hmem b (List.mem_cons_of_mem _ hb)⟩
    · simp [Spelling.unsigned, Spelling.powerChars]

end Decimal

namespace Binary64

/-- A document spells a double with a point or with an exponent. -/
theorem exists_spelling (x : Binary64) :
    ∃ s : Spelling, x.document.toList = s.chars ∧ s.numeral.whole = false := by
  obtain ⟨s, hnegative, hunsigned, hwhole⟩ : ∃ s : Spelling, s.negative = x.isNegative ∧
      s.unsigned = (if -5 ≤ x.shortest.lead ∧ x.shortest.lead < 16 then
        if 0 ≤ x.shortest.power then x.shortest.positional ++ ['.', '0'] else x.shortest.positional
      else x.shortest.scientific) ∧ s.numeral.whole = false := by
    split
    next => exact x.shortest.exists_spelling_positional x.isNegative
    next => exact x.shortest.exists_spelling_scientific x.isNegative
  refine ⟨s, ?_, hwhole⟩
  simp only [document, signed, String.toList_ofList, Spelling.chars, hnegative, hunsigned]

/-- Whether the text of a double in a document is a numeral that denotes it. -/
def ReadsBack (x : Binary64) : Prop :=
  (Numeral.scan? x.document.toList).map (fun scanned => scanned.1.toBinary64) = some x

instance (x : Binary64) : Decidable x.ReadsBack := inferInstanceAs (Decidable (_ = _))

/-- A double that reads back is read from its text, whatever ends it. -/
theorem ReadsBack.scan? {x : Binary64} (h : x.ReadsBack) :
    ∃ n : Numeral, n.whole = false ∧ n.toBinary64 = x ∧
      ∀ rest, Numeral.Ends rest → Numeral.scan? (x.document.toList ++ rest) = some (n, rest) := by
  obtain ⟨s, hchars, hwhole⟩ := x.exists_spelling
  have hscan : Numeral.scan? (s.chars ++ []) = some (s.numeral, []) := s.scan?_chars nofun
  rw [List.append_nil] at hscan
  -- that it reads back is known of the text alone, and the spelling is scanned alike before a rest
  refine ⟨s.numeral, hwhole, ?_, fun rest hrest => hchars ▸ s.scan?_chars hrest⟩
  simpa [ReadsBack, hchars, hscan] using h

end Binary64

/-- The digits of a whole number, behind a sign or not, are a numeral, whatever ends them. -/
theorem Numeral.scan?_digitChars (negative : Bool) (n : Nat) {rest : List Char} (h : Ends rest) :
    scan? ((if negative then '-' :: Decimal.digitChars n else Decimal.digitChars n) ++ rest) =
      some (⟨negative, n, 0, true⟩, rest) := by
  have hscan := Spelling.scan?_chars ⟨negative, Decimal.digitChars n, none, none,
    fun _ => Decimal.isDigit_of_mem_digitChars, Decimal.front_digitChars n, nofun⟩ h
  simpa [Spelling.chars, Spelling.unsigned, Spelling.numeral, assemble] using hscan

end CardRewards
