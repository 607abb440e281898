/-!
# Dictionaries on text keys

A `Dict V` gives a value to each of finitely many texts and lists them in the order of their code
points. The list is strictly increasing in its keys, and that fact is part of the type, so a
dictionary is determined by its look-ups: `Dict.ext_get?`. Every counter, toggle, alias and
conversion table of the library is one, because the order in which they are written out is the
order of the keys and never the order of insertion.

The view of a dictionary is `get?`; each operation says what it does to it (`get?_insert`,
`get?_empty`, `ofList_append`).
-/

namespace CardRewards

namespace Text

/-! ## The order of texts -/

theorem lt_irrefl (a : String) : ¬ a < a := by
  rw [String.lt_iff]
  exact List.lt_irrefl _

theorem lt_trans {a b c : String} (h : a < b) (k : b < c) : a < c := by
  rw [String.lt_iff] at *
  exact List.lt_trans h k

/-- Of two different texts one comes first. -/
theorem lt_of_not_lt_of_ne {a b : String} (h : ¬ a < b) (k : a ≠ b) : b < a := by
  rw [String.lt_iff] at *
  rcases Decidable.em (b.toList < a.toList) with hlt | hge
  · exact hlt
  · exact absurd (String.toList_inj.mp (List.le_antisymm (List.not_lt.mp hge) (List.not_lt.mp h))) k

end Text

namespace Dict

variable {V : Type}

/-! ## Sorted listings -/

/-- Write the value of a key into a listing, at its place. -/
def insertEntry (key : String) (value : V) : List (String × V) → List (String × V)
  | [] => [(key, value)]
  | (k, v) :: rest =>
    if key < k then (key, value) :: (k, v) :: rest
    else if key = k then (key, value) :: rest
    else (k, v) :: insertEntry key value rest

/-- The value listed for a key. -/
def lookup (key : String) : List (String × V) → Option V
  | [] => none
  | (k, v) :: rest => if key = k then some v else lookup key rest

/-- A listing in strictly increasing order of its keys. -/
def Sorted (entries : List (String × V)) : Prop :=
  entries.Pairwise fun a b => a.1 < b.1

theorem mem_insertEntry {key : String} {value : V} {entry : String × V} :
    ∀ {entries : List (String × V)}, entry ∈ insertEntry key value entries →
      entry = (key, value) ∨ entry ∈ entries
  | [], h => by simpa [insertEntry] using h
  | (k, v) :: rest, h => by
    unfold insertEntry at h
    split at h
    · simpa using h
    · split at h
      · rcases List.mem_cons.mp h with h | h
        · exact .inl h
        · exact .inr (List.mem_cons_of_mem _ h)
      · rcases List.mem_cons.mp h with h | h
        · exact .inr (h ▸ List.mem_cons_self ..)
        · rcases mem_insertEntry h with h | h
          · exact .inl h
          · exact .inr (List.mem_cons_of_mem _ h)

theorem sorted_insertEntry (key : String) (value : V) :
    ∀ {entries : List (String × V)}, Sorted entries → Sorted (insertEntry key value entries)
  | [], _ => by simp [insertEntry, Sorted]
  | (k, v) :: rest, h => by
    obtain ⟨hhead, htail⟩ := List.pairwise_cons.mp h
    unfold insertEntry
    split
    · next hlt =>
      refine List.Pairwise.cons ?_ h
      intro entry he
      rcases List.mem_cons.mp he with rfl | he
      · exact hlt
      · exact Text.lt_trans hlt (hhead _ he)
    · next hnot =>
      split
      · next heq =>
        subst heq
        exact List.Pairwise.cons hhead htail
      · next hne =>
        refine List.Pairwise.cons ?_ (sorted_insertEntry key value htail)
        intro entry he
        rcases mem_insertEntry he with rfl | he
        · exact Text.lt_of_not_lt_of_ne hnot hne
        · exact hhead _ he

theorem lookup_insertEntry (key : String) (value : V) (other : String) :
    ∀ entries : List (String × V), lookup other (insertEntry key value entries) =
      if other = key then some value else lookup other entries
  | [] => rfl
  | (k, v) :: rest => by
    unfold insertEntry
    split
    · rfl
    · split
      · next heq =>
        subst heq
        simp only [lookup]
        split <;> rfl
      · next hne =>
        simp only [lookup, lookup_insertEntry key value other rest]
        split
        · next hok =>
          subst hok
          rw [if_neg (fun h => hne h.symm)]
        · rfl

theorem lookup_eq_none_of_lt {key : String} :
    ∀ {entries : List (String × V)}, (∀ entry ∈ entries, key < entry.1) → lookup key entries = none
  | [], _ => rfl
  | (k, v) :: rest, h => by
    have hk : key < k := h (k, v) (List.mem_cons_self ..)
    rw [lookup, if_neg (fun heq : key = k => Text.lt_irrefl k (heq ▸ hk))]
    exact lookup_eq_none_of_lt fun entry he => h entry (List.mem_cons_of_mem _ he)

/-- Sorted listings with the same look-ups are the same listing. -/
theorem eq_of_lookup_eq : ∀ {a b : List (String × V)}, Sorted a → Sorted b →
    (∀ key, lookup key a = lookup key b) → a = b
  | [], [], _, _, _ => rfl
  | [], (k, v) :: _, _, _, h => by simpa [lookup] using h k
  | (k, v) :: _, [], _, _, h => by simpa [lookup] using h k
  | (k, v) :: rest, (k', v') :: rest', ha, hb, h => by
    obtain ⟨ha1, ha2⟩ := List.pairwise_cons.mp ha
    obtain ⟨hb1, hb2⟩ := List.pairwise_cons.mp hb
    have hkey : k = k' := by
      refine Decidable.byContradiction fun hne => ?_
      rcases Decidable.em (k < k') with hlt | hge
      · have := h k
        rw [lookup, if_pos rfl, lookup_eq_none_of_lt] at this
        · simp at this
        · intro entry he
          rcases List.mem_cons.mp he with rfl | he
          · exact hlt
          · exact Text.lt_trans hlt (hb1 _ he)
      · have hlt := Text.lt_of_not_lt_of_ne hge hne
        have := h k'
        rw [lookup_eq_none_of_lt, lookup, if_pos rfl] at this
        · simp at this
        · intro entry he
          rcases List.mem_cons.mp he with rfl | he
          · exact hlt
          · exact Text.lt_trans hlt (ha1 _ he)
    subst hkey
    have hv : v = v' := by simpa [lookup] using h k
    subst hv
    refine congrArg _ (eq_of_lookup_eq ha2 hb2 ?_)
    intro key
    rcases Decidable.em (key = k) with rfl | hne
    · rw [lookup_eq_none_of_lt ha1, lookup_eq_none_of_lt hb1]
    · simpa [lookup, hne] using h key

end Dict

/-- A finite table from texts to values, listed in the order of its keys. -/
structure Dict (V : Type) where
  entries : List (String × V)
  sorted : Dict.Sorted entries

namespace Dict

variable {V W : Type}

instance [DecidableEq V] : DecidableEq (Dict V) := fun a b =>
  decidable_of_iff (a.entries = b.entries) ⟨fun h => by cases a; cases b; cases h; rfl, (· ▸ rfl)⟩

/-- The table without entries. -/
def empty : Dict V := ⟨[], List.Pairwise.nil⟩

instance : Inhabited (Dict V) := ⟨empty⟩
instance : EmptyCollection (Dict V) := ⟨empty⟩

/-- The value of a key. -/
def get? (d : Dict V) (key : String) : Option V := lookup key d.entries

/-- Whether the key has a value. -/
def contains (d : Dict V) (key : String) : Bool := (d.get? key).isSome

/-- Give a key a value, in place of the one it may have had. -/
def insert (d : Dict V) (key : String) (value : V) : Dict V :=
  ⟨insertEntry key value d.entries, sorted_insertEntry key value d.sorted⟩

/-- The keys and values in the order of the keys. -/
def toList (d : Dict V) : List (String × V) := d.entries

/-- The keys in their order. -/
def keys (d : Dict V) : List String := d.entries.map Prod.fst

/-- The values in the order of their keys. -/
def values (d : Dict V) : List V := d.entries.map Prod.snd

/-- How many keys have a value. -/
def size (d : Dict V) : Nat := d.entries.length

/-- Whether no key has a value. -/
def isEmpty (d : Dict V) : Bool := d.entries.isEmpty

/-- The table of a listing; of several values for one key the last counts. -/
def ofList (entries : List (String × V)) : Dict V :=
  entries.foldl (fun d entry => d.insert entry.1 entry.2) empty

/-- The table with every value changed by a function. -/
def map (f : V → W) (d : Dict V) : Dict W where
  entries := d.entries.map fun entry => (entry.1, f entry.2)
  sorted := by
    unfold Sorted
    rw [List.pairwise_map]
    exact d.sorted

@[simp] theorem get?_empty (key : String) : (empty : Dict V).get? key = none := rfl

theorem get?_insert (d : Dict V) (key other : String) (value : V) :
    (d.insert key value).get? other = if other = key then some value else d.get? other :=
  lookup_insertEntry key value other d.entries

@[simp] theorem get?_insert_self (d : Dict V) (key : String) (value : V) :
    (d.insert key value).get? key = some value := by
  rw [get?_insert, if_pos rfl]

theorem get?_insert_of_ne (d : Dict V) {key other : String} (value : V) (h : other ≠ key) :
    (d.insert key value).get? other = d.get? other := by
  rw [get?_insert, if_neg h]

/-- A dictionary is its look-ups. -/
theorem ext_get? {a b : Dict V} (h : ∀ key, a.get? key = b.get? key) : a = b := by
  have := eq_of_lookup_eq a.sorted b.sorted h
  cases a
  cases b
  cases this
  rfl

/-- Reading a longer listing goes on where the shorter one ended. -/
theorem ofList_append (a b : List (String × V)) :
    ofList (a ++ b) = b.foldl (fun d entry => d.insert entry.1 entry.2) (ofList a) :=
  List.foldl_append ..

end Dict

/-- The texts of a list in order, each of them once. -/
def Text.sortedSet (texts : List String) : List String :=
  (Dict.ofList (texts.map fun text => (text, ()))).keys

end CardRewards
