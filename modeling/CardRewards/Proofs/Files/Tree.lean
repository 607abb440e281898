import CardRewards.Files.Tree
import CardRewards.Proofs.Dict

/-!
# What operations on files leave alone

Creating directories leaves all files as they are and takes no directory away, however far it gets
(`extends_createFrom`). Writing a file changes that file and no other (`Writes`), and moving one
changes the two places that it is about (`of_move?`). Neither makes or removes a directory, and
where a path leads depends on the directories alone (`place?_congr`), so paths lead to the same
places afterwards.

Places are told apart by their texts. Inside one directory different names have different texts, and
what is in a directory has a longer text than the directory (`placeText_append_ne`,
`length_placeText_append_lt`). So creating the directories that lead to a place does not create a
directory at that place, if the way does not lead up (`of_isDirectory_createFrom`).
-/

namespace CardRewards

/-- The parts of a path say something. -/
theorem Path.ne_empty_of_mem_parts {p : Path} {part : String} (h : part ∈ p.parts) : part ≠ "" := by
  have hsays := (List.mem_filter.mp h).2
  simp only [Bool.and_eq_true, decide_eq_true_eq] at hsays
  exact hsays.1

namespace FileTree

variable {t t' : FileTree} {place other : Place}

/-- What the file at a place holds. -/
def content? (t : FileTree) (place : Place) : Option FileContent :=
  match t.entry? place with
  | some (.file content) => some content
  | _ => none

theorem content?_eq_some_iff {content : FileContent} :
    t.content? place = some content ↔ t.entry? place = some (.file content) := by
  unfold content?
  split
  next h => simp [h]
  next h => simpa using h content

theorem isDirectory_iff : t.isDirectory place = true ↔ t.entry? place = some .directory :=
  decide_eq_true_iff

/-- Places are counted from directories. -/
theorem isOrigin_of_ne (h : t.entry? place ≠ some .directory) : isOrigin place = false :=
  Bool.eq_false_iff.mpr fun horigin => h (if_pos horigin)

/-- Places with the same text are the same place. -/
theorem entry?_congr (h : isOrigin place = false) (hother : isOrigin other = false)
    (htext : placeText other = placeText place) : t.entry? other = t.entry? place := by
  unfold entry?
  rw [h, hother, htext]

theorem entry?_insert (t : FileTree) (place other : Place) (entry : FileEntry) :
    entry? ⟨t.entries.insert (placeText place) entry⟩ other =
      if isOrigin other = false ∧ placeText other = placeText place then some entry
      else t.entry? other := by
  unfold entry?
  cases isOrigin other <;> simp [Dict.get?_insert]

theorem entry?_remove (t : FileTree) (place other : Place) :
    entry? (t.remove place) other =
      if isOrigin other = false ∧ placeText other = placeText place then none
      else t.entry? other := by
  unfold entry? remove
  rw [Dict.get?_ofList_filter_ne]
  cases isOrigin other <;> simp

/-! ## Directories alone -/

/-- Whether one tree has the files of another, and its directories too. -/
structure Extends (t t' : FileTree) : Prop where
  directories : ∀ place, t.isDirectory place = true → t'.isDirectory place = true
  contents : ∀ place, t'.content? place = t.content? place

theorem Extends.refl (t : FileTree) : t.Extends t := ⟨fun _ h => h, fun _ => rfl⟩

theorem Extends.trans {t'' : FileTree} (h : t.Extends t') (h' : t'.Extends t'') : t.Extends t'' :=
  ⟨fun place hplace => h'.directories place (h.directories place hplace),
    fun place => (h'.contents place).trans (h.contents place)⟩

theorem extends_insert_directory (h : t.entry? place = none) :
    t.Extends ⟨t.entries.insert (placeText place) .directory⟩ := by
  have horigin : isOrigin place = false := isOrigin_of_ne (t := t) (by simp [h])
  constructor
  · intro other hother
    rw [isDirectory_iff, entry?_insert]
    split
    next => rfl
    next => exact isDirectory_iff.mp hother
  · intro other
    unfold content?
    rw [entry?_insert]
    by_cases hsame : isOrigin other = false ∧ placeText other = placeText place
    · rw [if_pos hsame, entry?_congr horigin hsame.1 hsame.2, h]
    · rw [if_neg hsame]

/-- The files that something has come to, whether it went through or not. -/
def reached : Except FileTree FileTree → FileTree
  | .ok t => t
  | .error t => t

theorem extends_createFrom : ∀ (parts : List String) (t : FileTree) (place : Place),
    t.Extends (reached (t.createFrom place parts))
  | [], t, _ => .refl t
  | part :: rest, t, place => by
    unfold createFrom
    split
    next => exact .refl t
    next next _ =>
      split
      next => exact .refl t
      next => exact extends_createFrom rest t next
      next hentry => exact (extends_insert_directory hentry).trans (extends_createFrom rest _ next)

/-! ## One file -/

/-- What writing a file does. -/
structure Writes (t : FileTree) (place : Place) (content : FileContent) (t' : FileTree) : Prop where
  origin : isOrigin place = false
  directories : ∀ other, t'.isDirectory other = t.isDirectory other
  entries : ∀ other, t'.entry? other =
    if isOrigin other = false ∧ placeText other = placeText place then some (.file content)
    else t.entry? other

theorem writes_of_write? {content : FileContent} (h : t.write? place content = some t') :
    t.Writes place content t' := by
  unfold write? at h
  split at h
  next => exact nomatch h
  next hfree =>
    obtain rfl := Option.some.inj h
    simp only [Bool.or_eq_true, not_or, Bool.not_eq_true] at hfree
    obtain ⟨⟨horigin, hdirectory⟩, -⟩ := hfree
    refine ⟨horigin, fun other => ?_, fun other => entry?_insert t place other _⟩
    unfold isDirectory
    rw [entry?_insert]
    split
    next hsame =>
      rw [entry?_congr horigin hsame.1 hsame.2]
      exact hdirectory.symm
    next => rfl

theorem Writes.entry?_self {content : FileContent} (h : t.Writes place content t') :
    t'.entry? place = some (.file content) := by
  rw [h.entries, if_pos ⟨h.origin, rfl⟩]

/-- Writing a file leaves all others alone. -/
theorem Writes.content?_of_ne {content : FileContent} (h : t.Writes place content t')
    (hne : placeText other ≠ placeText place) : t'.content? other = t.content? other := by
  unfold content?
  rw [h.entries, if_neg fun hsame => hne hsame.2]

/-- A file that is removed is no directory, so all directories stay. -/
theorem isDirectory_remove {content : FileContent} (h : t.entry? place = some (.file content))
    (other : Place) : (t.remove place).isDirectory other = t.isDirectory other := by
  have horigin : isOrigin place = false := isOrigin_of_ne (t := t) (by simp [h])
  unfold isDirectory
  rw [entry?_remove]
  split
  next hsame =>
    rw [entry?_congr horigin hsame.1 hsame.2, h]
    rfl
  next => rfl

theorem content?_remove_of_ne (h : placeText other ≠ placeText place) :
    (t.remove place).content? other = t.content? other := by
  unfold content?
  rw [entry?_remove, if_neg fun hsame => h hsame.2]

/-! ## Where paths lead -/

theorem follow?_congr (h : ∀ place, t'.isDirectory place = t.isDirectory place) :
    t'.follow? = t.follow? := by
  funext place part
  simp only [follow?, h]

theorem place?_congr (h : ∀ place, t'.isDirectory place = t.isDirectory place) (p : Path) :
    t'.place? p = t.place? p := by
  simp only [place?, follow?_congr h]

theorem follow?_of_directories
    (h : ∀ place, t.isDirectory place = true → t'.isDirectory place = true) {part : String}
    (hfollow : t.follow? place part = some other) : t'.follow? place part = some other := by
  unfold follow? at *
  split at hfollow
  next hpart => rw [if_pos hpart, hfollow]
  next hpart =>
    rw [if_neg hpart]
    split at hfollow
    next hroot => rw [if_pos hroot, hfollow]
    next hroot =>
      rw [if_neg hroot]
      split at hfollow
      next habove => rw [if_pos habove, hfollow]
      next habove =>
        rw [if_neg habove]
        split at hfollow
        next hdirectory => rw [if_pos (h _ hdirectory), hfollow]
        next => exact nomatch hfollow

theorem foldlM_follow?_of_directories
    (h : ∀ place, t.isDirectory place = true → t'.isDirectory place = true) :
    ∀ {parts : List String} {place : Place}, parts.foldlM t.follow? place = some other →
      parts.foldlM t'.follow? place = some other
  | [], _, hfold => hfold
  | part :: parts, place, hfold => by
    rw [List.foldlM_cons] at hfold ⊢
    cases hfollow : t.follow? place part with
    | none =>
      rw [hfollow] at hfold
      exact nomatch hfold
    | some next =>
      rw [hfollow] at hfold
      rw [follow?_of_directories h hfollow]
      show parts.foldlM t'.follow? next = some other
      exact foldlM_follow?_of_directories h hfold

/-- More directories lead no path astray. -/
theorem place?_of_directories
    (h : ∀ place, t.isDirectory place = true → t'.isDirectory place = true) {p : Path}
    (hplace : t.place? p = some place) : t'.place? p = some place := by
  unfold place? at *
  split at hplace
  next => exact nomatch hplace
  next htext =>
    rw [if_neg htext]
    exact foldlM_follow?_of_directories h hplace

/-- What the file at a path holds. -/
def contentAt? (t : FileTree) (p : Path) : Option FileContent :=
  match t.find? p with
  | some (.file content) => some content
  | _ => none

/-- Where nothing stands at a path there is no content. -/
theorem contentAt?_of_holds_eq_false {p : Path} (h : t.holds p = false) :
    t.contentAt? p = none := by
  have hnothing : t.find? p = none := Option.isNone_iff_eq_none.mp (Option.isSome_eq_false_iff.mp h)
  rw [contentAt?, hnothing]

/-- At a path is found the file at its place, unless the path insists on a directory. -/
theorem contentAt?_eq {p : Path} (hplace : t.place? p = some place) :
    t.contentAt? p = if p.namesDirectory then none else t.content? place := by
  unfold contentAt? find? content?
  rw [hplace, Option.bind_some]
  cases t.entry? place with
  | none => simp
  | some entry => cases entry <;> cases p.namesDirectory <;> rfl

/-- At a path there is a directory, or a file where the path does not insist on a directory. -/
theorem holds_iff {p : Path} (hplace : t.place? p = some place) :
    t.holds p = true ↔
      t.isDirectory place = true ∨ (t.content? place).isSome ∧ p.namesDirectory = false := by
  unfold holds find? content? isDirectory
  rw [hplace, Option.bind_some]
  cases t.entry? place with
  | none => simp
  | some entry => cases entry <;> cases p.namesDirectory <;> simp

/-- Moving a file takes it from where it was to where the path leads. -/
theorem of_move? {source : Place} {p : Path} (h : t.move? source p = some t') :
    ∃ content target, t.entry? source = some (.file content) ∧ t.place? p = some target ∧
      p.namesDirectory = false ∧ (t.remove source).Writes target content t' := by
  unfold move? at h
  split at h
  next content target hsource htarget =>
    split at h
    next => exact nomatch h
    next hnames =>
      exact ⟨content, target, hsource, htarget, Bool.eq_false_iff.mpr hnames, writes_of_write? h⟩
  next => exact nomatch h

/-! ## Texts of places -/

private theorem intercalate_append (names : List String) :
    ∃ mark, ∀ name, "/".intercalate (names ++ [name]) = "/".intercalate names ++ mark ++ name := by
  cases names with
  | nil => exact ⟨"", fun name => by simp⟩
  | cons first rest =>
    refine ⟨"/", fun name => ?_⟩
    rw [String.intercalate_append_of_ne_nil (List.cons_ne_nil _ _) (List.cons_ne_nil _ _),
      String.intercalate_singleton]

/-- The text of a place goes on behind that of the directory that it is in. -/
theorem placeText_append (directory : Place) :
    ∃ mark, ∀ name, placeText (directory ++ [name]) = placeText directory ++ mark ++ name := by
  cases directory with
  | nil =>
    refine ⟨"", fun name => ?_⟩
    show placeText [name] = "/".intercalate [] ++ "" ++ name
    unfold placeText
    split
    next heq =>
      obtain ⟨rfl, rfl⟩ := List.cons.inj heq
      simp
    next => simp
  | cons first rest =>
    by_cases hroot : first = "/"
    · subst hroot
      obtain ⟨mark, hmark⟩ := intercalate_append rest
      refine ⟨mark, fun name => ?_⟩
      show "/" ++ "/".intercalate (rest ++ [name]) = "/" ++ "/".intercalate rest ++ mark ++ name
      simp only [hmark, String.append_assoc]
    · -- only the root is written as a mark of its own, all else is joined by it
      have hplain (names : Place) :
          placeText (first :: names) = "/".intercalate (first :: names) := by
        unfold placeText
        split
        next heq => exact absurd (List.cons.inj heq).1 hroot
        next => rfl
      obtain ⟨mark, hmark⟩ := intercalate_append (first :: rest)
      refine ⟨mark, fun name => ?_⟩
      rw [List.cons_append, hplain, hplain]
      exact hmark name

theorem placeText_append_ne (directory : Place) {name other : String} (h : name ≠ other) :
    placeText (directory ++ [name]) ≠ placeText (directory ++ [other]) := by
  obtain ⟨mark, hmark⟩ := placeText_append directory
  rw [hmark, hmark]
  exact fun heq => h (String.append_right_inj _ |>.mp heq)

/-- What is in a directory has a longer text than the directory, at every depth. -/
theorem length_placeText_append_lt : ∀ (names : Place) (directory : Place), names ≠ [] →
    (∀ name ∈ names, name ≠ "") →
    (placeText directory).length < (placeText (directory ++ names)).length
  | [], _, hne, _ => absurd rfl hne
  | name :: rest, directory, _, h => by
    have hname : 0 < name.length := Nat.pos_of_ne_zero fun hzero =>
      h name (List.mem_cons_self ..) (String.length_eq_zero_iff.mp hzero)
    have hfirst : (placeText directory).length < (placeText (directory ++ [name])).length := by
      obtain ⟨mark, hmark⟩ := placeText_append directory
      rw [hmark, String.length_append, String.length_append]
      omega
    by_cases hrest : rest = []
    · subst hrest
      exact hfirst
    · have hlater := length_placeText_append_lt rest (directory ++ [name]) hrest
        fun other hother => h other (List.mem_cons_of_mem _ hother)
      rw [List.append_assoc] at hlater
      exact Nat.lt_trans hfirst hlater

/-- Nothing in a directory has the text of the directory. -/
theorem placeText_append_ne_self (directory : Place) {name : String} (h : name ≠ "") :
    placeText (directory ++ [name]) ≠ placeText directory := by
  intro heq
  have hlt := length_placeText_append_lt [name] directory (List.cons_ne_nil _ _) (by simpa using h)
  rw [heq] at hlt
  exact Nat.lt_irrefl _ hlt

/-! ## Paths that do not lead up -/

/-- Where places are counted from there is a directory. -/
theorem isDirectory_origin (t : FileTree) (p : Path) : t.isDirectory (origin p) = true := by
  have horigin : isOrigin (origin p) = true := by
    unfold origin
    split <;> rfl
  exact isDirectory_iff.mpr (if_pos horigin)

theorem foldlM_follow?_of_not_mem (t : FileTree) : ∀ {parts : List String} (place : Place),
    ".." ∉ parts → parts.foldlM t.follow? place = some (place ++ parts)
  | [], place, _ => by simp
  | part :: rest, place, h => by
    obtain ⟨hpart, hrest⟩ := not_or.mp (mt List.mem_cons.mpr h)
    have hfollow : t.follow? place part = some (place ++ [part]) := if_pos (Ne.symm hpart)
    rw [List.foldlM_cons, hfollow, Option.bind_eq_bind, Option.bind_some,
      foldlM_follow?_of_not_mem t (place ++ [part]) hrest, List.append_assoc]
    rfl

/-- A path that does not lead up has a place, whatever is there. -/
theorem place?_of_not_mem (t : FileTree) {p : Path} (htext : p.text ≠ "") (h : ".." ∉ p.parts) :
    t.place? p = some (origin p ++ p.parts) := by
  rw [place?, if_neg htext, foldlM_follow?_of_not_mem t _ h]

/-- The directories that are there after some have been created were there before, or the way led
through them. -/
theorem of_isDirectory_createFrom : ∀ {parts : List String} {t : FileTree} {place : Place},
    ".." ∉ parts → (reached (t.createFrom place parts)).isDirectory other = true →
    t.isDirectory other = true ∨
      ∃ front, front <+: parts ∧ placeText other = placeText (place ++ front)
  | [], t, place, _, h => .inl h
  | part :: rest, t, place, hparts, h => by
    obtain ⟨hpart, hrest⟩ := not_or.mp (mt List.mem_cons.mpr hparts)
    have hfollow : t.follow? place part = some (place ++ [part]) := if_pos (Ne.symm hpart)
    -- a place further along the way is one further along from here
    have hfurther : (∃ front, front <+: rest ∧
        placeText other = placeText (place ++ [part] ++ front)) →
        ∃ front, front <+: part :: rest ∧ placeText other = placeText (place ++ front) := by
      rintro ⟨front, hfront, htext⟩
      refine ⟨part :: front, (List.prefix_cons_inj part).mpr hfront, ?_⟩
      rwa [List.append_assoc] at htext
    unfold createFrom at h
    rw [hfollow] at h
    split at h
    next heq => exact nomatch heq
    next next heq =>
      obtain rfl := Option.some.inj heq
      split at h
      next => exact .inl h
      next =>
        rcases of_isDirectory_createFrom hrest h with hbefore | hway
        · exact .inl hbefore
        · exact .inr (hfurther hway)
      next =>
        rcases of_isDirectory_createFrom hrest h with hbefore | hway
        · rw [isDirectory_iff, entry?_insert] at hbefore
          split at hbefore
          next hsame => exact .inr ⟨[part], by simp, hsame.2⟩
          next => exact .inl (isDirectory_iff.mpr hbefore)
        · exact .inr (hfurther hway)

end FileTree

end CardRewards
