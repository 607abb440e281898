import CardRewards.Document.Json.Text

/-!
# Quoted texts are read back

What is written between two quotation marks is read as the text that was written: `unquote?_quote`.
A character is followed through the stages of reading: how it is written (`escape_cases`), that no
mark in that closes the text (`splitQuote?_escape`), the piece that it is taken for
(`pieces?_escape`). Only control characters are written with their number, and none of them is a
half of a surrogate pair, so the pieces join to the text.
-/

namespace CardRewards.Json

/-- The characters that have an escape of two characters, with the letter of it. -/
def shortEscapes : List (Char × Char) :=
  [('"', '"'), ('\\', '\\'), ('\n', 'n'), ('\r', 'r'), ('\t', 't'), (Char.ofNat 8, 'b'),
    (Char.ofNat 12, 'f')]

/-- The piece that a written character is read as. -/
def pieceOf (c : Char) : Piece :=
  if c.toNat < 32 ∧ c ∉ shortEscapes.map Prod.fst then .unit c.toNat else .char c

theorem escape_of_mem {c letter : Char} (h : (c, letter) ∈ shortEscapes) :
    escape c = ['\\', letter] ∧ letter ≠ 'u' ∧ pieceOf c = .char c := by
  have hall : ∀ e ∈ shortEscapes,
      escape e.1 = ['\\', e.2] ∧ e.2 ≠ 'u' ∧ pieceOf e.1 = .char e.1 := by decide
  exact hall _ h

theorem pieces?_short {c letter : Char} (h : (c, letter) ∈ shortEscapes) (cs : List Char) :
    pieces? ('\\' :: letter :: cs) = (pieces? cs).map (.char c :: ·) := by
  simp only [shortEscapes, List.mem_cons, Prod.mk.injEq, List.not_mem_nil, or_false] at h
  rcases h with ⟨rfl, rfl⟩ | ⟨rfl, rfl⟩ | ⟨rfl, rfl⟩ | ⟨rfl, rfl⟩ | ⟨rfl, rfl⟩ | ⟨rfl, rfl⟩ |
    ⟨rfl, rfl⟩ <;> exact Option.map_eq_bind.symm

/-- The digits that a control character is escaped with are read as its number. -/
theorem hex4?_hexDigit {n : Nat} (h : n < 32) :
    hex4? '0' '0' (hexDigit (n / 16)) (hexDigit (n % 16)) = some n := by
  have hall : ∀ n < 32, hex4? '0' '0' (hexDigit (n / 16)) (hexDigit (n % 16)) = some n := by decide
  exact hall n h

/-- No digit is a mark. -/
theorem hexDigit_ne {n : Nat} (h : n < 16) : hexDigit n ≠ '"' ∧ hexDigit n ≠ '\\' := by
  have hall : ∀ n < 16, hexDigit n ≠ '"' ∧ hexDigit n ≠ '\\' := by decide
  exact hall n h

/-- A character is written with a short escape, with its number, or as it is. -/
theorem escape_cases (c : Char) :
    (∃ letter, (c, letter) ∈ shortEscapes) ∨
    (escape c = ['\\', 'u', '0', '0', hexDigit (c.toNat / 16), hexDigit (c.toNat % 16)] ∧
      pieceOf c = .unit c.toNat ∧ c.toNat < 32) ∨
    (escape c = [c] ∧ pieceOf c = .char c ∧ 32 ≤ c.toNat ∧ c ≠ '"' ∧ c ≠ '\\') := by
  by_cases hshort : c ∈ shortEscapes.map Prod.fst
  · obtain ⟨e, he, rfl⟩ := List.mem_map.mp hshort
    exact .inl ⟨e.2, he⟩
  · right
    -- the marks are compared as characters, the other two short escapes by their numbers
    have hnumber : ∀ n, c.toNat = n → c = Char.ofNat n := fun n h => by
      rw [← h, Char.ofNat_toNat]
    have hb : c.toNat ≠ 8 := fun h => hshort (by rw [hnumber 8 h]; decide)
    have hf : c.toNat ≠ 12 := fun h => hshort (by rw [hnumber 12 h]; decide)
    have hne : c ≠ '"' ∧ c ≠ '\\' ∧ c ≠ '\n' ∧ c ≠ '\r' ∧ c ≠ '\t' := by
      refine ⟨?_, ?_, ?_, ?_, ?_⟩ <;> (rintro rfl; exact hshort (by decide))
    obtain ⟨h1, h2, h3, h4, h5⟩ := hne
    by_cases hcontrol : c.toNat < 32
    · left
      refine ⟨by simp [escape, h1, h2, h3, h4, h5, hb, hf, hcontrol], ?_, hcontrol⟩
      simp only [pieceOf, hcontrol, hshort, not_false_eq_true, and_self, if_true]
    · right
      refine ⟨by simp [escape, h1, h2, h3, h4, h5, hb, hf, hcontrol], ?_, by omega, h1, h2⟩
      simp only [pieceOf, hcontrol, false_and, if_false]

/-! ## The closing quote -/

theorem splitQuote?_cons {c : Char} (hquote : c ≠ '"') (hback : c ≠ '\\') (cs : List Char) :
    splitQuote? (c :: cs) = (splitQuote? cs).map fun split => (c :: split.1, split.2) := by
  rw [splitQuote?.eq_def]
  split
  next h => exact absurd h (List.cons_ne_nil _ _)
  next h => exact absurd (List.cons.inj h).1 hquote
  next h => exact absurd (List.cons.inj h).1 hback
  next h =>
    obtain ⟨rfl, rfl⟩ := List.cons.inj h
    rfl

/-- No quotation mark in what a character is written as closes the text. -/
theorem splitQuote?_escape (c : Char) (cs : List Char) :
    splitQuote? (escape c ++ cs) =
      (splitQuote? cs).map fun split => (escape c ++ split.1, split.2) := by
  rcases escape_cases c with ⟨letter, hshort⟩ | ⟨hescape, -, hcontrol⟩ |
    ⟨hescape, -, -, hquote, hback⟩
  · rw [(escape_of_mem hshort).1]
    rfl
  · have hhigh : c.toNat / 16 < 16 := by omega
    obtain ⟨hq1, hb1⟩ := hexDigit_ne hhigh
    obtain ⟨hq2, hb2⟩ := hexDigit_ne (Nat.mod_lt c.toNat (by decide))
    rw [hescape]
    -- the letter behind the backslash is skipped, and none of the digits closes the text
    show (splitQuote? ('0' :: '0' :: _ :: _ :: cs)).map _ = _
    rw [splitQuote?_cons (by decide) (by decide), splitQuote?_cons (by decide) (by decide),
      splitQuote?_cons hq1 hb1, splitQuote?_cons hq2 hb2]
    simp only [Option.map_map]
    rfl
  · rw [hescape]
    exact splitQuote?_cons hquote hback cs

theorem splitQuote?_flatMap_escape (rest : List Char) :
    ∀ cs : List Char,
      splitQuote? (cs.flatMap escape ++ '"' :: rest) = some (cs.flatMap escape, rest)
  | [] => rfl
  | c :: cs => by
    rw [List.flatMap_cons, List.append_assoc, splitQuote?_escape,
      splitQuote?_flatMap_escape rest cs]
    rfl

/-! ## The pieces between the quotes -/

theorem pieces?_escape (c : Char) (cs : List Char) :
    pieces? (escape c ++ cs) = (pieces? cs).map (pieceOf c :: ·) := by
  rcases escape_cases c with ⟨letter, hshort⟩ | ⟨hescape, hpiece, hcontrol⟩ |
    ⟨hescape, hpiece, hplain, hquote, hback⟩
  · obtain ⟨hescape, -, hpiece⟩ := escape_of_mem hshort
    rw [hescape, hpiece]
    exact pieces?_short hshort cs
  · rw [hescape, hpiece]
    show ((hex4? '0' '0' _ _).bind fun n => (pieces? cs).bind fun pieces =>
      some (Piece.unit n :: pieces)) = _
    rw [hex4?_hexDigit hcontrol, Option.map_eq_bind]
    rfl
  · rw [hescape, hpiece, List.singleton_append, pieces?.eq_def]
    split
    next h => exact absurd h (List.cons_ne_nil _ _)
    next h => exact absurd (List.cons.inj h).1 hback
    next h => exact absurd (List.cons.inj h).1 hback
    next h =>
      obtain ⟨rfl, rfl⟩ := List.cons.inj h
      simp [hquote, hback, Nat.not_lt.mpr hplain]

theorem pieces?_flatMap_escape :
    ∀ cs : List Char, pieces? (cs.flatMap escape) = some (cs.map pieceOf)
  | [] => rfl
  | c :: cs => by
    rw [List.flatMap_cons, pieces?_escape, pieces?_flatMap_escape cs]
    rfl

/-- A control character is no half of a surrogate pair. -/
theorem join?_unit {n : Nat} (h : n < 32) (rest : List Piece) :
    join? (.unit n :: rest) = (join? rest).map (Char.ofNat n :: ·) := by
  have hhigh : isHighHalf n = false := by simp [isHighHalf]; omega
  have hlow : isLowHalf n = false := by simp [isLowHalf]; omega
  cases rest with
  | nil => simp [join?, hhigh, hlow]
  | cons piece rest => cases piece <;> simp [join?, hhigh, hlow]

theorem join?_map_pieceOf : ∀ cs : List Char, join? (cs.map pieceOf) = some cs
  | [] => rfl
  | c :: cs => by
    rw [List.map_cons]
    by_cases h : c.toNat < 32 ∧ c ∉ shortEscapes.map Prod.fst
    · rw [show pieceOf c = .unit c.toNat from if_pos h, join?_unit h.1, join?_map_pieceOf cs,
        Char.ofNat_toNat]
      rfl
    · rw [show pieceOf c = .char c from if_neg h, join?, join?_map_pieceOf cs]
      rfl

/-- **A quoted text is read as the text that was written**, whatever characters it has and whatever
follows it. -/
theorem unquote?_quote (s : String) (rest : List Char) :
    unquote? (s.toList.flatMap escape ++ '"' :: rest) = some (some s, rest) := by
  simp only [unquote?, splitQuote?_flatMap_escape, pieces?_flatMap_escape, join?_map_pieceOf,
    Option.bind_eq_bind, Option.bind_some, Option.map_some, String.ofList_toList]

end CardRewards.Json
