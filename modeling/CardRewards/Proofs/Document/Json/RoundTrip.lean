import CardRewards.Document.Json.Printer
import CardRewards.Document.Json.Reader
import CardRewards.Proofs.Document.Json.Text
import CardRewards.Proofs.Number.Spelling

/-!
# Documents are read back

A document that keeps to what a text can say (`Node.Legible`) is read from its text as it was
written: `read?_write`.

The tokens that it is written with (`tokensOf`) stand between the two halves of the argument. The
text is taken apart into them, however deep they stand (`lexes_pretty`), and they are read as the
document, whatever follows them (`reads_tokensOf`). Both are shown by induction on the document, and
inside a list or a map by induction on what is left of it. The reader is bounded, and the bounds are
met because every token takes up a character and every value a token.
-/

namespace CardRewards

/-- What a number has to be for its text to be read as the same number. -/
def Number.Legible : Number → Prop
  | natural n => n < 18446744073709551616
  | negative n => 0 < n ∧ n < 18446744073709551616
  | real x => x.isFinite = true ∧ x.ReadsBack

/-- What a document has to be for its text to be read as the same document: no scalars whose meaning
depends on what is asked for, no lists that stand for no record, and numbers that are read back. -/
inductive Node.Legible : Node → Prop where
  | null : Legible .null
  | bool (b : Bool) : Legible (.bool b)
  | number {n : Number} (h : n.Legible) : Legible (.number n)
  | text (s : String) : Legible (.text s)
  | list {items : List Node} (h : ∀ item ∈ items, Legible item) : Legible (.list items)
  | map {entries : List (String × Node)} (h : ∀ entry ∈ entries, Legible entry.2) :
    Legible (.map entries)

namespace Json

/-! ## The tokens of a document -/

mutual

/-- The tokens that a document is written with. -/
def tokensOf : Node → List Token
  | .null => [.scalar .null]
  | .bool b => [.scalar (.bool b)]
  | .number n => [.scalar (.number n)]
  | .text s => [.text (some s)]
  | .plain s => [.text (some s)]
  | .unreadable => [.scalar .null]
  | .list items => .leftBracket :: itemTokens items
  | .sequence items => .leftBracket :: itemTokens items
  | .map entries => .leftBrace :: entryTokens entries

/-- The tokens of a list behind its opening bracket. -/
def itemTokens : List Node → List Token
  | [] => [.rightBracket]
  | item :: rest => tokensOf item ++ moreItemTokens rest

/-- The tokens of a list behind an item. -/
def moreItemTokens : List Node → List Token
  | [] => [.rightBracket]
  | item :: rest => .comma :: tokensOf item ++ moreItemTokens rest

/-- The tokens of a map behind its opening brace. -/
def entryTokens : List (String × Node) → List Token
  | [] => [.rightBrace]
  | entry :: rest => .text (some entry.1) :: .colon :: tokensOf entry.2 ++ moreEntryTokens rest

/-- The tokens of a map behind an entry. -/
def moreEntryTokens : List (String × Node) → List Token
  | [] => [.rightBrace]
  | entry :: rest =>
    .comma :: .text (some entry.1) :: .colon :: tokensOf entry.2 ++ moreEntryTokens rest

end

/-! ## Texts that are taken apart into tokens -/

/-- Some characters are taken apart into some tokens, with the rest left as it is. -/
structure Lexes (cs : List Char) (tokens : List Token) (rest : List Char) : Prop where
  fits : tokens.length ≤ cs.length
  read : ∀ fuel, tokensWithin? (fuel + tokens.length) (cs ++ rest) =
    (tokensWithin? fuel rest).map (tokens ++ ·)

namespace Lexes

variable {rest : List Char}

theorem append {a b : List Char} {s t : List Token} (ha : Lexes a s (b ++ rest))
    (hb : Lexes b t rest) : Lexes (a ++ b) (s ++ t) rest where
  fits := by
    have := ha.fits
    have := hb.fits
    simp only [List.length_append]
    omega
  read fuel := by
    -- the fuel for the second part is left over by the first
    have hfuel : fuel + (s ++ t).length = fuel + t.length + s.length := by
      rw [List.length_append]
      omega
    rw [hfuel, List.append_assoc, ha.read, hb.read, Option.map_map]
    congr 1
    funext tokens
    exact (List.append_assoc ..).symm

/-- White space is no token. -/
theorem space {cs : List Char} (h : ∀ c ∈ cs, isSpace c = true) : Lexes cs [] rest where
  fits := Nat.zero_le _
  read fuel := by
    cases fuel with
    | zero => rfl
    | succ fuel =>
      show tokensWithin? (fuel + 1) _ = (tokensWithin? (fuel + 1) rest).map id
      rw [Option.map_id_apply, tokensWithin?, tokensWithin?, List.dropWhile_append_of_pos h]

theorem token {c : Char} {cs : List Char} {t : Token} (hspace : isSpace c = false)
    (h : token? (c :: (cs ++ rest)) = some (t, rest)) : Lexes (c :: cs) [t] rest where
  fits := Nat.succ_le_succ (Nat.zero_le _)
  read fuel := by
    show tokensWithin? (fuel + 1) (c :: (cs ++ rest)) = _
    rw [tokensWithin?, List.dropWhile_cons_of_neg (by simp [hspace])]
    simp only [h, Option.bind_eq_bind, Option.bind_some, Option.map_eq_bind]
    rfl

theorem newline (depth : Nat) : Lexes (newline depth) [] rest := by
  refine space fun c hc => ?_
  rcases List.mem_cons.mp hc with rfl | hc
  · rfl
  · rw [List.eq_of_mem_replicate hc]
    rfl

theorem quote (s : String) : Lexes (quote s) [.text (some s)] rest := by
  refine token rfl ?_
  show (unquote? (s.toList.flatMap escape ++ ['"'] ++ rest)).map _ = _
  rw [List.append_assoc, List.singleton_append, unquote?_quote]
  rfl

end Lexes

/-- Whether a value ends before some characters: before a comma, a new line or nothing. -/
def Closes (rest : List Char) : Prop := ∀ c ∈ rest.head?, c = ',' ∨ c = '\n'

theorem Closes.ends {rest : List Char} (h : Closes rest) : Numeral.Ends rest := by
  intro c hc
  rcases h c hc with rfl | rfl <;> decide

/-! ### Numbers -/

theorem token?_of_scan? {cs rest : List Char} {n : Numeral}
    (h : Numeral.scan? cs = some (n, rest)) : token? cs = some (.scalar (numberNode n), rest) := by
  obtain ⟨c, tail, rfl, hc⟩ := Numeral.head_of_scan? h
  unfold token?
  split
  case h_1 heq => exact nomatch heq
  case h_12 => rw [h]; rfl
  -- every other token begins with a mark or a letter, and no numeral does
  all_goals
    next heq =>
      obtain ⟨rfl, -⟩ := List.cons.inj heq
      exact absurd hc (by decide)

theorem Lexes.numeral {cs rest : List Char} {n : Numeral}
    (h : Numeral.scan? (cs ++ rest) = some (n, rest)) (hcs : cs ≠ []) :
    Lexes cs [.scalar (numberNode n)] rest := by
  obtain ⟨c, tail, rfl⟩ := List.exists_cons_of_ne_nil hcs
  obtain ⟨d, _, heq, hd⟩ := Numeral.head_of_scan? h
  obtain ⟨rfl, -⟩ := List.cons.inj heq
  refine token ?_ (token?_of_scan? h)
  unfold isSpace
  rcases hd with hd | rfl
  · simp only [Bool.or_eq_false_iff, decide_eq_false_iff_not]
    refine ⟨⟨⟨?_, ?_⟩, ?_⟩, ?_⟩ <;> (rintro rfl; exact absurd hd (by decide))
  · rfl

/-- The text of a number is read as the number. -/
theorem lexes_numberText {n : Number} (h : n.Legible) {rest : List Char} (hrest : Closes rest) :
    Lexes (numberText n) [.scalar (.number n)] rest := by
  cases n with
  | natural n =>
    have hscan := Numeral.scan?_digitChars false n hrest.ends
    rw [if_neg Bool.false_ne_true] at hscan
    have hnode : numberNode ⟨false, n, 0, true⟩ = .number (.natural n) := by
      have hn : n < 18446744073709551616 := h
      simp [numberNode, hn]
    exact hnode ▸ Lexes.numeral hscan (Decimal.digitChars_ne_nil n)
  | negative n =>
    have hscan := Numeral.scan?_digitChars true n hrest.ends
    rw [if_pos rfl] at hscan
    have hnode : numberNode ⟨true, n, 0, true⟩ = .number (.negative n) := by
      obtain ⟨hpositive, hn⟩ := h
      simp [numberNode, hn, Nat.pos_iff_ne_zero.mp hpositive]
    exact hnode ▸ Lexes.numeral hscan (List.cons_ne_nil _ _)
  | real x =>
    obtain ⟨hfinite, hback⟩ := h
    obtain ⟨n, hwhole, rfl, hscan⟩ := hback.scan?
    -- spelled with a point or an exponent, it is not taken for a whole number
    have hnode : numberNode n = .number (.real n.toBinary64) := by
      simp [numberNode, hwhole, hfinite]
    have htext : numberText (.real n.toBinary64) = n.toBinary64.document.toList := if_pos hfinite
    rw [htext]
    refine hnode ▸ Lexes.numeral (hscan rest hrest.ends) fun hnil => ?_
    obtain ⟨_, _, heq, _⟩ := Numeral.head_of_scan? (hscan [] nofun)
    rw [hnil] at heq
    exact nomatch heq

/-! ### Lists and maps -/

/-- A mark that a new line follows. -/
theorem Lexes.markLine {c : Char} {t : Token} (depth : Nat) {rest : List Char}
    (hspace : isSpace c = false) (h : ∀ tail, token? (c :: tail) = some (t, tail)) :
    Lexes (c :: Json.newline depth) [t] rest :=
  Lexes.append (b := Json.newline depth) (a := [c]) (token hspace (h _)) (newline depth)

/-- A closing mark on a line of its own. -/
theorem Lexes.lineMark {c : Char} {t : Token} (depth : Nat) {rest : List Char}
    (hspace : isSpace c = false) (h : ∀ tail, token? (c :: tail) = some (t, tail)) :
    Lexes (Json.newline depth ++ [c]) [t] rest :=
  (newline depth).append (token hspace (h _))

theorem closes_moreItems (depth : Nat) (items : List Node) (rest : List Char) :
    Closes (moreItems depth items ++ (newline depth ++ [']']) ++ rest) := by
  intro c hc
  cases items with
  | nil => exact .inr (by simpa [moreItems, newline] using hc.symm)
  | cons item items => exact .inl (by simpa [moreItems] using hc.symm)

theorem closes_moreEntries (depth : Nat) (entries : List (String × Node)) (rest : List Char) :
    Closes (moreEntries depth entries ++ (newline depth ++ ['}']) ++ rest) := by
  intro c hc
  cases entries with
  | nil => exact .inr (by simpa [moreEntries, newline] using hc.symm)
  | cons entry entries => exact .inl (by simpa [moreEntries] using hc.symm)

/-- Whether a document is taken apart into its tokens wherever it is written. -/
def LexesAnywhere (node : Node) : Prop :=
  ∀ depth rest, Closes rest → Lexes (pretty depth node) (tokensOf node) rest

theorem lexes_moreItems (depth : Nat) (rest : List Char) :
    ∀ items : List Node, (∀ item ∈ items, LexesAnywhere item) →
      Lexes (moreItems depth items ++ (newline depth ++ [']'])) (moreItemTokens items) rest
  | [], _ => Lexes.lineMark depth rfl fun _ => rfl
  | item :: items, h => by
    have hmore := lexes_moreItems depth rest items fun i hi => h i (List.mem_cons_of_mem _ hi)
    have hitem := (h item (List.mem_cons_self ..) (depth + 1) _
      (closes_moreItems depth items rest)).append hmore
    have hcomma : ∀ tail, Lexes (',' :: newline (depth + 1)) [.comma] tail := fun _ =>
      .markLine (depth + 1) rfl fun _ => rfl
    simpa [moreItems, moreItemTokens] using (hcomma _).append hitem

theorem lexes_list {items : List Node} (h : ∀ item ∈ items, LexesAnywhere item) :
    LexesAnywhere (.list items) := by
  intro depth rest _
  cases items with
  | nil => exact Lexes.append (a := ['[']) (b := [']']) (.token rfl rfl) (.token rfl rfl)
  | cons item items =>
    have hmore := lexes_moreItems depth rest items fun i hi => h i (List.mem_cons_of_mem _ hi)
    have hitem := (h item (List.mem_cons_self ..) (depth + 1) _
      (closes_moreItems depth items rest)).append hmore
    have hopen : ∀ tail, Lexes ('[' :: newline (depth + 1)) [.leftBracket] tail := fun _ =>
      .markLine (depth + 1) rfl fun _ => rfl
    simpa [pretty, prettyItems, tokensOf, itemTokens] using (hopen _).append hitem

theorem lexes_key (key : String) (rest : List Char) :
    Lexes (quote key ++ [':', ' ']) [.text (some key), .colon] rest :=
  (Lexes.quote key).append
    (Lexes.append (a := [':']) (b := [' ']) (.token rfl rfl)
      (.space fun c hc => by rw [List.mem_singleton.mp hc]; rfl))

theorem lexes_moreEntries (depth : Nat) (rest : List Char) :
    ∀ entries : List (String × Node), (∀ entry ∈ entries, LexesAnywhere entry.2) →
      Lexes (moreEntries depth entries ++ (newline depth ++ ['}'])) (moreEntryTokens entries) rest
  | [], _ => Lexes.lineMark depth rfl fun _ => rfl
  | entry :: entries, h => by
    have hmore := lexes_moreEntries depth rest entries fun e he => h e (List.mem_cons_of_mem _ he)
    have hvalue := (h entry (List.mem_cons_self ..) (depth + 1) _
      (closes_moreEntries depth entries rest)).append hmore
    have hcomma : ∀ tail, Lexes (',' :: newline (depth + 1)) [.comma] tail := fun _ =>
      .markLine (depth + 1) rfl fun _ => rfl
    simpa [moreEntries, moreEntryTokens] using
      (hcomma _).append ((lexes_key entry.1 _).append hvalue)

theorem lexes_map {entries : List (String × Node)} (h : ∀ entry ∈ entries, LexesAnywhere entry.2) :
    LexesAnywhere (.map entries) := by
  intro depth rest _
  cases entries with
  | nil => exact Lexes.append (a := ['{']) (b := ['}']) (.token rfl rfl) (.token rfl rfl)
  | cons entry entries =>
    have hmore := lexes_moreEntries depth rest entries fun e he => h e (List.mem_cons_of_mem _ he)
    have hvalue := (h entry (List.mem_cons_self ..) (depth + 1) _
      (closes_moreEntries depth entries rest)).append hmore
    have hopen : ∀ tail, Lexes ('{' :: newline (depth + 1)) [.leftBrace] tail := fun _ =>
      .markLine (depth + 1) rfl fun _ => rfl
    simpa [pretty, tokensOf, entryTokens] using
      (hopen _).append ((lexes_key entry.1 _).append hvalue)

/-- What is written is taken apart into the tokens that it was written with. -/
theorem lexes_pretty {node : Node} (h : node.Legible) : LexesAnywhere node := by
  induction h with
  | null => exact fun _ _ _ => .token rfl rfl
  | bool b => cases b <;> exact fun _ _ _ => .token rfl rfl
  | number h =>
    intro depth rest hrest
    simpa [pretty, tokensOf] using lexes_numberText h hrest
  | text s =>
    intro depth rest _
    simpa [pretty, tokensOf] using Lexes.quote s
  | list _ ih => exact lexes_list ih
  | map _ ih => exact lexes_map ih

/-! ## Tokens that are read as a document -/

/-- Whether the tokens of a document are read as it, whatever follows them. -/
def ReadsAnywhere (node : Node) : Prop :=
  ∀ fuel rest, (tokensOf node).length ≤ fuel →
    value? fuel (tokensOf node ++ rest) = some (node, rest)

theorem head_tokensOf (node : Node) :
    ∃ token rest, tokensOf node = token :: rest ∧ token ≠ .rightBracket := by
  cases node <;> exact ⟨_, _, rfl, nofun⟩

theorem items?_tokens (rest : List Token) :
    ∀ (items : List Node) (item : Node) (fuel : Nat), ReadsAnywhere item →
      (∀ item ∈ items, ReadsAnywhere item) →
      (tokensOf item ++ moreItemTokens items).length ≤ fuel →
      items? fuel (tokensOf item ++ (moreItemTokens items ++ rest)) = some (item :: items, rest)
  | items, item, 0, _, _, hfuel => by
    -- the item has a token, and the bound leaves room for it
    obtain ⟨_, _, htokens, _⟩ := head_tokensOf item
    simp [htokens] at hfuel
  | [], item, fuel + 1, hitem, _, hfuel => by
    simp only [moreItemTokens, List.length_append, List.length_singleton] at hfuel
    rw [items?, hitem fuel _ (by omega)]
    rfl
  | next :: items, item, fuel + 1, hitem, h, hfuel => by
    simp only [moreItemTokens, List.length_append, List.length_cons, List.cons_append] at hfuel
    have hnext := items?_tokens rest items next fuel (h next (List.mem_cons_self ..))
      (fun i hi => h i (List.mem_cons_of_mem _ hi)) (by simp only [List.length_append]; omega)
    rw [items?, hitem fuel _ (by omega)]
    simp only [moreItemTokens, List.cons_append, List.append_assoc, Option.bind_eq_bind,
      Option.bind_some, hnext]

theorem value?_items {fuel : Nat} {tokens rest : List Token} {items : List Node}
    (hhead : ∀ tail, tokens ≠ .rightBracket :: tail)
    (h : items? fuel tokens = some (items, rest)) :
    value? (fuel + 1) (.leftBracket :: tokens) = some (.list items, rest) := by
  rw [value?, h]
  · rfl
  · exact hhead

theorem reads_list {items : List Node} (h : ∀ item ∈ items, ReadsAnywhere item) :
    ReadsAnywhere (.list items) := by
  intro fuel rest hfuel
  obtain _ | fuel := fuel
  · simp [tokensOf] at hfuel
  cases items with
  | nil => rfl
  | cons item items =>
    simp only [tokensOf, itemTokens, List.length_cons] at hfuel
    simp only [tokensOf, itemTokens, List.cons_append, List.append_assoc]
    -- the first token of an item does not close the list
    refine value?_items ?_ (items?_tokens rest items item fuel (h item (List.mem_cons_self ..))
      (fun i hi => h i (List.mem_cons_of_mem _ hi)) (by omega))
    obtain ⟨token, tail, htokens, hne⟩ := head_tokensOf item
    rw [htokens]
    rintro _ ⟨⟩
    exact hne rfl

theorem entries?_tokens (rest : List Token) :
    ∀ (entries : List (String × Node)) (entry : String × Node) (fuel : Nat),
      ReadsAnywhere entry.2 → (∀ entry ∈ entries, ReadsAnywhere entry.2) →
      (.text (some entry.1) :: .colon :: tokensOf entry.2 ++ moreEntryTokens entries).length ≤ fuel →
      entries? fuel (.text (some entry.1) :: .colon :: (tokensOf entry.2 ++
        (moreEntryTokens entries ++ rest))) = some (entry :: entries, rest)
  | _, _, 0, _, _, hfuel => by simp at hfuel
  | [], entry, fuel + 1, hentry, _, hfuel => by
    simp only [moreEntryTokens, List.length_append, List.length_cons] at hfuel
    rw [entries?, hentry fuel _ (by omega)]
    rfl
  | next :: entries, entry, fuel + 1, hentry, h, hfuel => by
    simp only [moreEntryTokens, List.length_append, List.length_cons, List.cons_append] at hfuel
    have hnext := entries?_tokens rest entries next fuel (h next (List.mem_cons_self ..))
      (fun e he => h e (List.mem_cons_of_mem _ he))
      (by simp only [List.cons_append, List.length_cons, List.length_append]; omega)
    rw [entries?, hentry fuel _ (by omega)]
    simp only [moreEntryTokens, List.cons_append, List.append_assoc, Option.bind_eq_bind,
      Option.bind_some, hnext]

theorem reads_map {entries : List (String × Node)} (h : ∀ entry ∈ entries, ReadsAnywhere entry.2) :
    ReadsAnywhere (.map entries) := by
  intro fuel rest hfuel
  obtain _ | fuel := fuel
  · simp [tokensOf] at hfuel
  cases entries with
  | nil => rfl
  | cons entry entries =>
    simp only [tokensOf, entryTokens, List.length_cons] at hfuel
    simp only [tokensOf, entryTokens, List.cons_append, List.append_assoc]
    rw [value?, entries?_tokens rest entries entry fuel (h entry (List.mem_cons_self ..))
      (fun e he => h e (List.mem_cons_of_mem _ he)) (by simpa using hfuel)]
    · rfl
    · exact nofun

/-- The tokens that a document was written with are read as the document. -/
theorem reads_tokensOf {node : Node} (h : node.Legible) : ReadsAnywhere node := by
  induction h with
  | list _ ih => exact reads_list ih
  | map _ ih => exact reads_map ih
  | _ =>
    intro fuel rest hfuel
    obtain _ | fuel := fuel
    · simp [tokensOf] at hfuel
    · rfl

/-- **A document is read as it was written**, over however many lines and however deep, if its
numbers are. -/
theorem read?_write {node : Node} (h : node.Legible) : read? (write node) = some node := by
  have hlexes := lexes_pretty h 0 [] nofun
  have htokens : tokens? (pretty 0 node) = some (tokensOf node) := by
    obtain ⟨fuel, hfuel⟩ : ∃ fuel, (pretty 0 node).length + 1 = fuel + 1 + (tokensOf node).length :=
      ⟨(pretty 0 node).length - (tokensOf node).length, by have := hlexes.fits; omega⟩
    have hread := hlexes.read (fuel + 1)
    rw [List.append_nil] at hread
    rw [tokens?, hfuel, hread]
    simp [tokensWithin?]
  have hvalue := reads_tokensOf h ((tokensOf node).length + 1) [] (Nat.le_succ _)
  rw [List.append_nil] at hvalue
  simp only [read?, write, String.toList_ofList, htokens, hvalue, Option.bind_eq_bind,
    Option.bind_some]

end Json
end CardRewards
