import Mathlib.Data.List.Nodup
import CardRewards.Document.Record
import CardRewards.Proofs.Dict
import CardRewards.Proofs.Document.Json.RoundTrip

/-!
# Values are read back from their nodes

What is written for a value is read as it: lists item by item, tables by their listings
(`Node.asDict?_ofDict`), numbers within their bounds, and a record that has all its fields field by
field (`Node.record?_map`). Amounts are the exception: one that is not finite is written as nothing,
and is not read (`Node.asAmount?_ofAmount`).
-/

namespace CardRewards

/-- Items that are each read as what they were written for are read as all of it. -/
theorem mapM_map_eq_some {α β : Type} {write : α → β} {read : β → Option α} :
    ∀ {items : List α}, (∀ a ∈ items, read (write a) = some a) →
      (items.map write).mapM read = some items
  | [], _ => rfl
  | a :: items, h => by
    rw [List.map_cons, List.mapM_cons, h a (List.mem_cons_self ..),
      mapM_map_eq_some fun b hb => h b (List.mem_cons_of_mem _ hb)]
    rfl

/-- Where an item is not read, nothing is. -/
theorem mapM_eq_none {α β : Type} {read : α → Option β} :
    ∀ {items : List α}, (∃ a ∈ items, read a = none) → items.mapM read = none
  | [], h => by simp at h
  | a :: items, h => by
    rw [List.mapM_cons]
    cases ha : read a with
    | none => rfl
    | some b =>
      have hrest : ∃ c ∈ items, read c = none := by
        obtain ⟨c, hc, hnone⟩ := h
        rcases List.mem_cons.mp hc with rfl | hc
        · rw [ha] at hnone
          exact nomatch hnone
        · exact ⟨c, hc, hnone⟩
      rw [mapM_eq_none hrest]
      rfl

namespace Node

variable {V : Type} {write : V → Node} {read : Node → Option V}

theorem asDict?_ofDict {d : Dict V} (h : ∀ v ∈ d.values, read (write v) = some v) :
    asDict? read (ofDict write d) = some d := by
  have hread : ∀ entry ∈ d.toList,
      ((read (write entry.2)).map fun value => (entry.1, value)) = some entry := by
    intro entry hentry
    rw [h entry.2 (List.mem_map_of_mem hentry)]
    rfl
  show (((d.toList.map fun entry => (entry.1, write entry.2)).mapM
    fun entry => (read entry.2).map fun value => (entry.1, value)).map Dict.ofList) = some d
  rw [mapM_map_eq_some hread, Option.map_some, Dict.ofList_toList]

theorem asDict?_ofDict_eq_none {d : Dict V} (h : ∃ v ∈ d.values, read (write v) = none) :
    asDict? read (ofDict write d) = none := by
  obtain ⟨v, hv, hnone⟩ := h
  obtain ⟨entry, hentry, rfl⟩ := List.mem_map.mp hv
  show (((d.toList.map fun entry => (entry.1, write entry.2)).mapM
    fun entry => (read entry.2).map fun value => (entry.1, value)).map Dict.ofList) = none
  have hwritten : (entry.1, write entry.2) ∈ d.toList.map fun entry => (entry.1, write entry.2) :=
    List.mem_map_of_mem hentry
  rw [mapM_eq_none ⟨_, hwritten, by rw [hnone]; rfl⟩, Option.map_none]

theorem legible_ofDict {d : Dict V} (h : ∀ v ∈ d.values, (write v).Legible) :
    (ofDict write d).Legible := by
  refine .map fun entry hentry => ?_
  obtain ⟨⟨key, v⟩, hmem, rfl⟩ := List.mem_map.mp hentry
  exact h v (List.mem_map_of_mem hmem)

theorem asNatural?_ofNat {bound n : Nat} (h : n ≤ bound) : asNatural? bound (ofNat n) = some n :=
  if_pos (decide_eq_true h)

theorem asUInt8?_ofNat (n : UInt8) : asUInt8? (ofNat n.toNat) = some n := by
  rw [asUInt8?, asNatural?_ofNat (Nat.le_of_lt_succ n.toNat_lt), Option.map_some, UInt8.ofNat_toNat]

theorem asUInt32?_ofNat (n : UInt32) : asUInt32? (ofNat n.toNat) = some n := by
  rw [asUInt32?, asNatural?_ofNat (Nat.le_of_lt_succ n.toNat_lt), Option.map_some,
    UInt32.ofNat_toNat]

theorem asUInt64?_ofNat (n : UInt64) : asUInt64? (ofNat n.toNat) = some n := by
  rw [asUInt64?, asNatural?_ofNat (Nat.le_of_lt_succ n.toNat_lt), Option.map_some,
    UInt64.ofNat_toNat]

theorem legible_ofNat {n : Nat} (h : n < 18446744073709551616) : (ofNat n).Legible := .number h

theorem asAmount?_ofAmount (x : Binary64) :
    asAmount? (ofAmount x) = if x.isFinite then some x else none := by
  unfold ofAmount
  split <;> rfl

/-- What is written for an amount is legible: where the amount is not finite, it is nothing. -/
theorem legible_ofAmount {x : Binary64} (h : x.isFinite = true → x.ReadsBack) :
    (ofAmount x).Legible := by
  unfold ofAmount
  split
  next hfinite => exact .number ⟨hfinite, h hfinite⟩
  next => exact .null

/-! ## Records -/

/-- Of entries with different keys the one with a key is found. -/
theorem value?_of_mem {entries : List (String × Node)} (hnodup : (entries.map Prod.fst).Nodup)
    {entry : String × Node} (h : entry ∈ entries) : value? entries entry.1 = some entry.2 := by
  have hfound : (entries.reverse.find? (·.1 = entry.1)).isSome := by
    rw [List.find?_isSome]
    exact ⟨entry, List.mem_reverse.mpr h, decide_eq_true rfl⟩
  obtain ⟨found, hfound⟩ := Option.isSome_iff_exists.mp hfound
  have hkey : found.1 = entry.1 := by simpa using List.find?_some hfound
  have hmem : found ∈ entries := List.mem_reverse.mp (List.mem_of_find?_eq_some hfound)
  -- the key is found from the end, and no other entry has it
  obtain rfl := List.inj_on_of_nodup_map hnodup hmem h hkey
  rw [value?, hfound]
  rfl

/-- A record that is written with some of its fields is read with these, and without the others. -/
theorem record?_of_sublist {names : List String} {entries : List (String × Node)}
    (hnodup : names.Nodup) (hsublist : (entries.map Prod.fst).Sublist names) :
    ∃ r, record? names (.map entries) = some r ∧ r.named = true ∧
      (∀ entry ∈ entries, r.slot? entry.1 = some entry.2) ∧
      ∀ name ∈ names, name ∉ entries.map Prod.fst → r.slot? name = none := by
  have hnodup' := hnodup.sublist hsublist
  have hunrepeated : unrepeated names entries = true := by
    rw [unrepeated, List.all_eq_true]
    intro name _
    have hcount := List.nodup_iff_count_le_one.mp hnodup' name
    rw [List.count_eq_countP, List.countP_map, List.countP_eq_length_filter] at hcount
    refine decide_eq_true (Nat.le_trans (Nat.le_of_eq ?_) hcount)
    congr 2
  have hslot : ∀ name ∈ names,
      (if names.contains name then value? entries name else none) = value? entries name :=
    fun name hname => if_pos (List.contains_iff_mem.mpr hname)
  refine ⟨_, if_pos hunrepeated, rfl, fun entry hentry => ?_, fun name hname hmissing => ?_⟩
  · have hname := hsublist.subset (List.mem_map_of_mem hentry)
    exact (hslot _ hname).trans (value?_of_mem hnodup' hentry)
  · refine (hslot _ hname).trans ?_
    rw [value?, Option.map_eq_none_iff, List.find?_eq_none]
    intro entry hentry heq
    rw [← of_decide_eq_true heq] at hmissing
    exact hmissing (List.mem_map_of_mem (List.mem_reverse.mp hentry))

/-- A record that is written with all its fields is read with all of them. -/
theorem record?_map {entries : List (String × Node)} (hnodup : (entries.map Prod.fst).Nodup) :
    ∃ r, record? (entries.map Prod.fst) (.map entries) = some r ∧
      ∀ entry ∈ entries, r.slot? entry.1 = some entry.2 := by
  obtain ⟨r, hrecord, -, hslots, -⟩ := record?_of_sublist hnodup (.refl _)
  exact ⟨r, hrecord, hslots⟩

variable {β : Type} {node : Node} {names : List String} {entries : List (String × Node)}
  {f : Record → Option β} {value : β}

/-- What is read from some fields is read from a record that was written with these. -/
theorem bind_record?_of_sublist (hnode : node = .map entries) (hnodup : names.Nodup)
    (hsublist : (entries.map Prod.fst).Sublist names)
    (h : ∀ r : Record, r.named = true → (∀ entry ∈ entries, r.slot? entry.1 = some entry.2) →
      (∀ name ∈ names, name ∉ entries.map Prod.fst → r.slot? name = none) → f r = some value) :
    (node.record? names >>= f) = some value := by
  obtain ⟨r, hrecord, hnamed, hslots, hmissing⟩ := record?_of_sublist hnodup hsublist
  rw [hnode, hrecord]
  exact h r hnamed hslots hmissing

/-- What is read from all fields is read from a record that was written with them. -/
theorem bind_record?_map (hnode : node = .map entries) (hnames : entries.map Prod.fst = names)
    (hnodup : names.Nodup)
    (h : ∀ r : Record, (∀ entry ∈ entries, r.slot? entry.1 = some entry.2) → f r = some value) :
    (node.record? names >>= f) = some value :=
  bind_record?_of_sublist hnode hnodup (hnames ▸ .refl _) fun r _ hslots _ => h r hslots

/-- What is read from all fields is read from a record in which one of them may be left out. -/
theorem bind_record?_entryIfSome (front : List (String × Node)) (key : String) (write : V → Node)
    (field : Option V) (back : List (String × Node))
    (hnode : node = .map (front ++ entryIfSome key write field ++ back))
    (hnames : front.map Prod.fst ++ key :: back.map Prod.fst = names) (hnodup : names.Nodup)
    (h : ∀ r : Record, r.named = true → (∀ entry ∈ front ++ back, r.slot? entry.1 = some entry.2) →
      r.slot? key = field.map write → f r = some value) :
    (node.record? names >>= f) = some value := by
  cases field with
  | none =>
    have hsublist : ((front ++ entryIfSome key write none ++ back).map Prod.fst).Sublist names := by
      rw [← hnames]
      simp [entryIfSome]
    refine bind_record?_of_sublist hnode hnodup hsublist fun r hnamed hslots hmissing => ?_
    refine h r hnamed (by simpa [entryIfSome] using hslots) (hmissing key (by simp [← hnames]) ?_)
    rw [← hnames, List.nodup_middle] at hnodup
    simpa [entryIfSome] using (List.nodup_cons.mp hnodup).1
  | some v =>
    have hsublist : ((front ++ entryIfSome key write (some v) ++ back).map Prod.fst).Sublist
        names := by
      rw [← hnames]
      simp [entryIfSome]
    refine bind_record?_of_sublist hnode hnodup hsublist fun r hnamed hslots _ => ?_
    refine h r hnamed (fun entry hentry => hslots entry ?_) (hslots (key, write v) ?_)
    · rcases List.mem_append.mp hentry with hfront | hback
      · exact List.mem_append_left _ (List.mem_append_left _ hfront)
      · exact List.mem_append_right _ hback
    · simp [entryIfSome]

/-- A record of several shapes is read by its tag. -/
theorem tagged?_map {tag name : String} {entries : List (String × Node)}
    (hreadable : entriesAreReadable entries = true) (habsent : ∀ entry ∈ entries, entry.1 ≠ tag) :
    tagged? tag (.map ((tag, .text name) :: entries)) = some (name, .map entries) := by
  have hfilter : entries.filter (·.1 = tag) = [] := by
    rw [List.filter_eq_nil_iff]
    intro entry hentry
    simpa using habsent entry hentry
  have hvalue : value? ((tag, .text name) :: entries) tag = some (.text name) := by
    have hnone : entries.reverse.find? (·.1 = tag) = none := by
      rw [List.find?_eq_none]
      intro entry hentry
      simpa using habsent entry (List.mem_reverse.mp hentry)
    simp [value?, List.find?_append, hnone]
  simpa [tagged?, isReadable, entriesAreReadable, hreadable, unrepeated, hfilter, hvalue, asText?]
    using fun name node h => habsent (name, node) h

/-! ## Values -/

theorem asOption?_ofOption {value : Option V}
    (h : ∀ v ∈ value, (write v).isNull = false ∧ read (write v) = some v) :
    asOption? read (ofOption write value) = some value := by
  cases value with
  | none => rfl
  | some v =>
    obtain ⟨hnull, hread⟩ := h v rfl
    simp [asOption?, ofOption, hnull, hread]

theorem asOption?_ofOption_text (value : Option String) :
    asOption? asText? (ofOption .text value) = some value :=
  asOption?_ofOption fun _ _ => ⟨rfl, rfl⟩

theorem isNull_ofAmount {x : Binary64} (h : x.isFinite = true) : (ofAmount x).isNull = false := by
  rw [ofAmount, if_pos h]
  rfl

theorem asOption?_ofOption_amount {value : Option Binary64}
    (h : ∀ x ∈ value, x.isFinite = true) :
    asOption? asAmount? (ofOption ofAmount value) = some value :=
  asOption?_ofOption fun x hx =>
    ⟨isNull_ofAmount (h x hx), by rw [asAmount?_ofAmount, if_pos (h x hx)]⟩

/-- Amounts that are finite or missing are read. -/
theorem asOption?_amounts {values : List (Option Binary64)}
    (h : ∀ x ∈ values.flatMap Option.toList, x.isFinite = true) :
    ∀ value ∈ values, asOption? asAmount? (ofOption ofAmount value) = some value :=
  fun value hvalue => asOption?_ofOption_amount fun x hx =>
    h x (List.mem_flatMap.mpr ⟨value, hvalue, Option.mem_toList.mpr hx⟩)

theorem asList?_map {items : List V} (h : ∀ v ∈ items, read (write v) = some v) :
    asList? read (.list (items.map write)) = some items :=
  mapM_map_eq_some h

theorem asTexts?_ofTexts (texts : List String) : asTexts? (ofTexts texts) = some texts :=
  asList?_map fun _ _ => rfl

theorem asName?_text {ofName? : String → Option V} (name : String) :
    asName? ofName? (.text name) = ofName? name := rfl

end Node

/-- A text that may be left out is read, and read as missing where it was. -/
theorem Record.optional_of_text {r : Record} {name : String} {field : Option String}
    (h : r.slot? name = field.map .text) : r.optional name Node.asText? = some field := by
  rw [optional, orElse, h]
  cases field <;> rfl

theorem Record.orElse_of_slot? {β : Type} {r : Record} {name : String} {default : β}
    {read : Node → Option β} {node : Node} (h : r.slot? name = some node) :
    r.orElse name default read = read node := by
  rw [orElse, h]

end CardRewards
