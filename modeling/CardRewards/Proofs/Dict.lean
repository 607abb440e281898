import CardRewards.Data.Dict

/-!
# Dictionaries and their listings

A dictionary is known by its look-ups, and its listing is what is written out. This module ties the
two: an entry is listed exactly if looking its key up finds its value (`get?_eq_some_iff`), so what
holds of all values is what holds of all look-ups. In a table made from a listing is found what was
listed last for the key (`get?_ofList`).
-/

namespace CardRewards

namespace Dict

variable {V W : Type}

theorem mem_of_lookup {key : String} {value : V} :
    ∀ {entries : List (String × V)}, lookup key entries = some value → (key, value) ∈ entries
  | [], h => by simp [lookup] at h
  | (k, v) :: rest, h => by
    unfold lookup at h
    split at h
    next heq =>
      obtain rfl := Option.some.inj h
      rw [heq]
      exact List.mem_cons_self ..
    next => exact List.mem_cons_of_mem _ (mem_of_lookup h)

theorem lookup_of_mem {key : String} {value : V} :
    ∀ {entries : List (String × V)}, Sorted entries → (key, value) ∈ entries →
      lookup key entries = some value
  | (k, v) :: rest, hsorted, hmem => by
    obtain ⟨hhead, htail⟩ := List.pairwise_cons.mp hsorted
    unfold lookup
    rcases List.mem_cons.mp hmem with heq | hrest
    · obtain ⟨rfl, rfl⟩ := Prod.mk.inj heq
      exact if_pos rfl
    · -- the listing is sorted, so the first key is not the one looked for
      have hlt : k < key := hhead _ hrest
      rw [if_neg (fun heq : key = k => Text.lt_irrefl k (heq ▸ hlt))]
      exact lookup_of_mem htail hrest

/-- Looking a key up finds a value exactly if the two are listed together. -/
theorem get?_eq_some_iff {d : Dict V} {key : String} {value : V} :
    d.get? key = some value ↔ (key, value) ∈ d.entries :=
  ⟨mem_of_lookup, lookup_of_mem d.sorted⟩

/-- The values are what look-ups find. -/
theorem mem_values_iff {d : Dict V} {value : V} :
    value ∈ d.values ↔ ∃ key, d.get? key = some value := by
  simp [values, get?_eq_some_iff]

theorem mem_values_of_get? {d : Dict V} {key : String} {value : V} (h : d.get? key = some value) :
    value ∈ d.values :=
  mem_values_iff.mpr ⟨key, h⟩

theorem mem_keys_iff {d : Dict V} {key : String} :
    key ∈ d.keys ↔ ∃ value, d.get? key = some value := by
  simp [keys, get?_eq_some_iff]

/-- Changing every value changes what look-ups find. -/
theorem get?_map (f : V → W) (d : Dict V) (key : String) :
    (d.map f).get? key = (d.get? key).map f := by
  show lookup key (d.entries.map fun entry => (entry.1, f entry.2)) = (lookup key d.entries).map f
  induction d.entries with
  | nil => rfl
  | cons entry rest ih =>
    obtain ⟨k, v⟩ := entry
    by_cases h : key = k
    · simp [lookup, h]
    · simp [lookup, h, ih]

/-! ## Tables made from a listing -/

private theorem get?_ofList_reverse (key : String) :
    ∀ listed : List (String × V),
      (ofList listed.reverse).get? key = (listed.find? (·.1 = key)).map Prod.snd
  | [] => rfl
  | entry :: rest => by
    rw [List.reverse_cons, ofList_append]
    show ((ofList rest.reverse).insert entry.1 entry.2).get? key = _
    rw [get?_insert, get?_ofList_reverse key rest]
    by_cases hkey : entry.1 = key
    · rw [if_pos hkey.symm, List.find?_cons_of_pos (by simpa using hkey)]
      rfl
    · rw [if_neg (Ne.symm hkey), List.find?_cons_of_neg (by simpa using hkey)]

/-- In the table of a listing is found what was listed last for the key. -/
theorem get?_ofList (entries : List (String × V)) (key : String) :
    (ofList entries).get? key = (entries.reverse.find? (·.1 = key)).map Prod.snd := by
  rw [← get?_ofList_reverse, List.reverse_reverse]

/-- What is looked up in a table was listed for it. -/
theorem mem_of_get?_ofList {entries : List (String × V)} {key : String} {value : V}
    (h : (ofList entries).get? key = some value) : (key, value) ∈ entries := by
  rw [get?_ofList] at h
  obtain ⟨⟨k, v⟩, hfound, rfl⟩ := Option.map_eq_some_iff.mp h
  obtain rfl : k = key := by simpa using List.find?_some hfound
  exact List.mem_reverse.mp (List.mem_of_find?_eq_some hfound)

/-- A key that is listed can be looked up. -/
theorem isSome_get?_ofList {entries : List (String × V)} {key : String}
    (h : key ∈ entries.map Prod.fst) : ((ofList entries).get? key).isSome := by
  obtain ⟨entry, hentry, rfl⟩ := List.mem_map.mp h
  rw [get?_ofList, Option.isSome_map, List.find?_isSome]
  exact ⟨entry, List.mem_reverse.mpr hentry, by simp⟩

private theorem get?_foldl_of_sorted {key : String} :
    ∀ {entries : List (String × V)}, Sorted entries → ∀ d : Dict V,
      (entries.foldl (fun d entry => d.insert entry.1 entry.2) d).get? key =
        (lookup key entries).or (d.get? key)
  | [], _, _ => rfl
  | (k, v) :: rest, h, d => by
    obtain ⟨hhead, htail⟩ := List.pairwise_cons.mp h
    rw [List.foldl_cons, get?_foldl_of_sorted htail, get?_insert, lookup]
    by_cases hkey : key = k
    · subst hkey
      rw [if_pos rfl, if_pos rfl, lookup_eq_none_of_lt hhead]
      rfl
    · rw [if_neg hkey, if_neg hkey]

/-- In the table of a sorted listing is found what is listed. -/
theorem get?_ofList_of_sorted {entries : List (String × V)} (h : Sorted entries) (key : String) :
    (ofList entries).get? key = lookup key entries := by
  show (List.foldl _ empty entries).get? key = _
  rw [get?_foldl_of_sorted h, get?_empty, Option.or_none]

/-- A table is the table of its listing. -/
theorem ofList_toList (d : Dict V) : ofList d.toList = d :=
  ext_get? (get?_ofList_of_sorted d.sorted)

theorem lookup_filter_ne (gone key : String) :
    ∀ entries : List (String × V), lookup key (entries.filter (·.1 ≠ gone)) =
      if key = gone then none else lookup key entries
  | [] => by simp [lookup]
  | (k, v) :: rest => by
    have ih := lookup_filter_ne gone key rest
    by_cases hk : k = gone
    · rw [List.filter_cons_of_neg (by simpa using hk), ih, lookup]
      split
      next => rfl
      next hne => rw [if_neg fun heq => hne (heq.trans hk)]
    · rw [List.filter_cons_of_pos (by simpa using hk), lookup, lookup, ih]
      by_cases hkey : key = k
      · rw [if_pos hkey, if_pos hkey, if_neg (hkey ▸ hk)]
      · rw [if_neg hkey, if_neg hkey]

/-- The table of a listing without a key. -/
theorem get?_ofList_filter_ne (d : Dict V) (gone key : String) :
    (ofList (d.toList.filter (·.1 ≠ gone))).get? key = if key = gone then none else d.get? key := by
  have hsorted : Sorted (d.toList.filter (·.1 ≠ gone)) := List.Pairwise.filter _ d.sorted
  rw [get?_ofList_of_sorted hsorted, lookup_filter_ne]
  rfl

/-! ## Keys -/

@[simp] theorem keys_map (f : V → W) (d : Dict V) : (d.map f).keys = d.keys := by
  unfold keys
  show (d.entries.map fun entry => (entry.1, f entry.2)).map Prod.fst = _
  rw [List.map_map]
  rfl

/-- Tables that have values for the same keys list the same keys. -/
theorem keys_ext {d : Dict V} {d' : Dict W} (h : ∀ key, key ∈ d.keys ↔ key ∈ d'.keys) :
    d.keys = d'.keys := by
  have hmap : d.map (fun _ => ()) = d'.map (fun _ => ()) := by
    refine ext_get? fun key => Option.ext fun _ => ?_
    simpa [get?_map, mem_keys_iff] using h key
  rw [← keys_map (fun _ => ()) d, hmap, keys_map]

theorem mem_keys_ofList {entries : List (String × V)} {key : String} :
    key ∈ (ofList entries).keys ↔ key ∈ entries.map Prod.fst := by
  rw [mem_keys_iff]
  constructor
  · rintro ⟨value, h⟩
    exact List.mem_map.mpr ⟨_, mem_of_get?_ofList h, rfl⟩
  · intro h
    exact Option.isSome_iff_exists.mp (isSome_get?_ofList h)

end Dict

/-- A sorted set has the texts that it was made from. -/
theorem Text.mem_sortedSet {texts : List String} {text : String} :
    text ∈ Text.sortedSet texts ↔ text ∈ texts := by
  unfold Text.sortedSet
  rw [Dict.mem_keys_ofList, List.map_map]
  simp

/-- A sorted set is in order and has each text once. -/
theorem Text.sortedSet_pairwise (texts : List String) : (sortedSet texts).Pairwise (· < ·) :=
  List.pairwise_map.mpr (Dict.ofList (texts.map fun text => (text, ()))).sorted

/-- The keys of a listing are listed in order, each of them once. -/
theorem Dict.keys_ofList {V : Type} (entries : List (String × V)) :
    (ofList entries).keys = Text.sortedSet (entries.map Prod.fst) :=
  keys_ext fun _ => mem_keys_ofList.trans Text.mem_sortedSet.symm

end CardRewards
