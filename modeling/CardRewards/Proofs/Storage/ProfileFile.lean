import CardRewards.Proofs.Encoding.Profile
import CardRewards.Proofs.Files.Tree
import CardRewards.Storage.ProfileFile

/-!
# Profiles survive being stored

Storing a profile creates directories, writes a temporary file and moves it, and the disk may fail
at each of these. What each step leaves alone carries over to the whole: `of_storeOn` says what was
done when all went through, `left_of_storeOn` what may be left behind when not. With the round trip
of documents this is `saveOn_roundTrip`: a profile that was saved is loaded again, and one that was
not saved has changed no file but the temporary one.

Directories stay behind where storing fails, and where a path leads up they can matter: `a/../b`
leads to nothing without the directory `a`, and to `b` with it (`saveOn_lostDirectory`). What is
loaded stays the same as long as no path comes to lead to something in this way
(`load_of_storeOn_error`), and one that does not lead up never does (`holds_of_storeOn_error`).
-/

namespace CardRewards

namespace ProfileFile

open FileTree (placeText reached)

variable {f : ProfileFile} {files made written left : FileTree} {place temporary target : Place}
  {text : String} {trouble : Option Trouble}

/-! ## Reading -/

/-- What is written for a profile is read as it if all amounts are finite, and else not read. -/
theorem profileOf_write {p : Profile Binary64} (h : p.ReadsBack) :
    profileOf (Json.write p.toNode) = if p.IsFinite then .ok p else .error .malformedJson := by
  unfold profileOf
  rw [Json.read?_write (p.legible_toNode h), Option.bind_some, p.ofNode?_toNode]
  split
  next heq =>
    split at heq
    next hfinite => rw [if_pos hfinite, ← Option.some.inj heq]
    next => exact nomatch heq
  next heq =>
    split at heq
    next => exact nomatch heq
    next hinfinite => rw [if_neg hinfinite]

/-- A profile file is loaded from the text that it holds. -/
theorem load_of_contentAt? (h : f.files.contentAt? f.path = some (.text text)) :
    f.load = profileOf text := by
  have hfind : f.files.find? f.path = some (.file (.text text)) := by
    unfold FileTree.contentAt? at h
    split at h
    next hfind => rw [hfind, Option.some.inj h]
    next => exact nomatch h
  simp only [load, FileTree.holds, FileTree.text?, hfind, Option.isSome_some, if_true]

/-- A profile is loaded from a text at the path, or is a new customer's where there is none. -/
theorem of_load {p : Profile Binary64} (h : f.load = .ok p) :
    f.files.holds f.path = false ∧ p = .empty ∨
      ∃ text, f.files.contentAt? f.path = some (.text text) ∧ profileOf text = .ok p := by
  unfold load at h
  split at h
  next =>
    split at h
    next text htext =>
      refine .inr ⟨text, ?_, h⟩
      unfold FileTree.text? at htext
      split at htext
      next hfind => rw [FileTree.contentAt?, hfind, Option.some.inj htext]
      next => cases htext
    next => cases h
  next habsent => exact .inl ⟨Bool.eq_false_iff.mpr habsent, (Except.ok.inj h).symm⟩

/-! ## Places -/

/-- The temporary file stands beside the profile, or inside where the profile can be no file. -/
theorem temporaryPlace?_cases (h : files.place? f.path = some target) :
    (∃ directory name, target = directory ++ [name] ∧
      f.temporaryPlace? files = some (directory ++ [name ++ ".tmp"])) ∨
    f.temporaryPlace? files = some (target ++ ["profile.json.tmp"]) := by
  unfold FileTree.place? at h
  split at h
  next => exact nomatch h
  next =>
    unfold temporaryPlace? temporaryName
    cases hname : f.path.fileName? with
    | none =>
      right
      simp only [Option.isSome_none, Bool.false_eq_true, if_false, h]
      rfl
    | some name =>
      left
      obtain ⟨hlast, hdots⟩ := Option.filter_eq_some_iff.mp hname
      obtain ⟨front, hparts⟩ := List.getLast?_eq_some_iff.mp hlast
      rw [hparts, List.foldlM_append] at h
      obtain ⟨directory, hfront, htarget⟩ := Option.bind_eq_some_iff.mp h
      have hfollow : files.follow? directory name = some (directory ++ [name]) :=
        if_pos (by simpa using hdots)
      have htarget : directory ++ [name] = target := by
        simpa [hfollow] using htarget
      refine ⟨directory, name, htarget.symm, ?_⟩
      simp [hparts, hfront]

/-- The temporary file does not stand in the place of the profile. -/
theorem placeText_temporary_ne (h : files.place? f.path = some target)
    (htemporary : f.temporaryPlace? files = some temporary) :
    placeText temporary ≠ placeText target := by
  rcases temporaryPlace?_cases h with ⟨directory, name, rfl, hplace⟩ | hplace
  · obtain rfl := Option.some.inj (hplace.symm.trans htemporary)
    refine FileTree.placeText_append_ne directory fun heq => ?_
    have hlength := congrArg String.length heq
    simp [String.length_append] at hlength
  · obtain rfl := Option.some.inj (hplace.symm.trans htemporary)
    exact FileTree.placeText_append_ne_self target (by decide)

theorem temporaryPlace?_congr
    (h : ∀ place, written.isDirectory place = made.isDirectory place) :
    f.temporaryPlace? written = f.temporaryPlace? made := by
  simp only [temporaryPlace?, FileTree.follow?_congr h]

/-! ## The steps of storing -/

/-- Creating directories leaves all files alone, whether it goes through or not. -/
theorem extends_createOn (f : ProfileFile) (trouble : Option Trouble) :
    f.files.Extends (reached (f.createOn trouble)) := by
  unfold createOn
  split
  next parts =>
    have h := FileTree.extends_createFrom (f.path.parts.dropLast.take parts) f.files
      (FileTree.origin f.path)
    split
    next heq => rwa [heq] at h
    next heq => rwa [heq] at h
  next => exact FileTree.extends_createFrom _ _ _

/-- The directories that are created stand on the way to the profile, if that does not lead up. -/
theorem of_isDirectory_createOn (hdots : ".." ∉ f.path.parts)
    (h : (reached (f.createOn trouble)).isDirectory place = true) :
    f.files.isDirectory place = true ∨ ∃ front, front <+: f.path.parts.dropLast ∧
      placeText place = placeText (FileTree.origin f.path ++ front) := by
  have hfront : ".." ∉ f.path.parts.dropLast := fun hmem => hdots (List.dropLast_subset _ hmem)
  unfold createOn at h
  split at h
  next parts =>
    have htaken : ".." ∉ f.path.parts.dropLast.take parts :=
      fun hmem => hfront (List.mem_of_mem_take hmem)
    have hreached : (reached (f.files.createFrom (FileTree.origin f.path)
        (f.path.parts.dropLast.take parts))).isDirectory place = true := by
      split at h
      next heq => rwa [heq]
      next heq => rwa [heq]
    rcases FileTree.of_isDirectory_createFrom htaken hreached with hbefore | ⟨front, hway, htext⟩
    · exact .inl hbefore
    · exact .inr ⟨front, hway.trans (List.take_prefix _ _), htext⟩
  next => exact FileTree.of_isDirectory_createFrom hfront h

theorem writes_of_writeOn (h : writeOn made temporary text trouble = .ok written) :
    made.Writes temporary (.text text) written := by
  unfold writeOn at h
  split at h
  next => exact nomatch h
  next => exact nomatch h
  next =>
    split at h
    next hwrite => exact Except.ok.inj h ▸ FileTree.writes_of_write? hwrite
    next => exact nomatch h

/-- A failed write leaves no temporary file, or one with something in it. -/
theorem left_of_writeOn (h : writeOn made temporary text trouble = .error left) :
    left = made ∨ ∃ content, made.Writes temporary content left := by
  unfold writeOn at h
  split at h
  next => exact .inl (Except.error.inj h).symm
  next content =>
    cases hwrite : made.write? temporary content with
    | none =>
      rw [hwrite] at h
      exact .inl (Except.error.inj h).symm
    | some written =>
      rw [hwrite] at h
      exact .inr ⟨content, Except.error.inj h ▸ FileTree.writes_of_write? hwrite⟩
  next =>
    split at h
    next => exact nomatch h
    next => exact .inl (Except.error.inj h).symm

theorem move?_of_moveOn (h : f.moveOn written temporary trouble = .ok files) :
    written.move? temporary f.path = some files := by
  unfold moveOn at h
  split at h
  next => exact nomatch h
  next =>
    split at h
    next hmove => exact Except.ok.inj h ▸ hmove
    next => exact nomatch h

theorem left_of_moveOn (h : f.moveOn written temporary trouble = .error left) : left = written := by
  unfold moveOn at h
  split at h
  next => exact (Except.error.inj h).symm
  next =>
    split at h
    next => exact nomatch h
    next => exact (Except.error.inj h).symm

/-- Storing that goes through has created directories, written the temporary file and moved it. -/
theorem of_storeOn (h : f.storeOn text trouble = .ok files) :
    ∃ made temporary written, f.files.Extends made ∧ f.temporaryPlace? made = some temporary ∧
      made.Writes temporary (.text text) written ∧ written.move? temporary f.path = some files := by
  have hextends := f.extends_createOn trouble
  unfold storeOn at h
  cases hmade : f.createOn trouble with
  | error made =>
    rw [hmade] at h
    exact nomatch h
  | ok made =>
    rw [hmade] at h hextends
    simp only [bind, Except.bind] at h
    split at h
    next => exact nomatch h
    next temporary hplace =>
      split at h
      next => exact nomatch h
      next written hwritten =>
        exact ⟨made, temporary, written, hextends, hplace, writes_of_writeOn hwritten,
          move?_of_moveOn h⟩

/-- Storing that fails has created directories, and may have left something in a temporary file. -/
theorem left_of_storeOn (h : f.storeOn text trouble = .error left) :
    let made := reached (f.createOn trouble)
    left = made ∨ ∃ temporary content,
      f.temporaryPlace? made = some temporary ∧ made.Writes temporary content left := by
  intro made
  unfold storeOn at h
  cases hmade : f.createOn trouble with
  | error stopped =>
    rw [hmade] at h
    refine .inl ?_
    simp only [made, hmade]
    exact (Except.error.inj h).symm
  | ok created =>
    obtain rfl : made = created := by simp only [made, hmade, reached]
    rw [hmade] at h
    simp only [bind, Except.bind] at h
    split at h
    next => exact .inl (Except.error.inj h).symm
    next temporary hplace =>
      split at h
      next hleft =>
        obtain rfl := Except.error.inj h
        rcases left_of_writeOn hleft with hmade | ⟨content, hwrites⟩
        · exact .inl hmade
        · exact .inr ⟨temporary, content, hplace, hwrites⟩
      next written hwritten =>
        obtain rfl := left_of_moveOn h
        exact .inr ⟨temporary, .text text, hplace, writes_of_writeOn hwritten⟩

/-! ## Saving -/

/-- Whether a place is that of the profile. -/
def IsProfile (f : ProfileFile) (place : Place) : Prop :=
  ∃ target, f.files.place? f.path = some target ∧ placeText place = placeText target

/-- Whether a place is that of the temporary file. -/
def IsTemporary (f : ProfileFile) (place : Place) : Prop :=
  ∃ temporary, f.temporaryPlace? f.files = some temporary ∧ placeText place = placeText temporary

/-- The place of the profile is not that of the temporary file. -/
theorem IsProfile.not_isTemporary (h : f.IsProfile place) : ¬ f.IsTemporary place := by
  obtain ⟨target, htarget, htext⟩ := h
  rintro ⟨temporary, htemporary, htext'⟩
  exact placeText_temporary_ne htarget htemporary (htext' ▸ htext)

/-- What is stored stands at the path and nowhere else. -/
theorem stored_of_storeOn (h : f.storeOn text trouble = .ok files) :
    let after : ProfileFile := { f with files }
    files.contentAt? f.path = some (.text text) ∧
    (∃ temporary, after.temporaryPlace? files = some temporary ∧ files.entry? temporary = none) ∧
    ∀ place, ¬ after.IsProfile place → ¬ after.IsTemporary place →
      files.content? place = f.files.content? place := by
  intro after
  obtain ⟨made, temporary, written, hextends, htemporary, hwritten, hmove⟩ := of_storeOn h
  obtain ⟨content, target, hsource, htarget, hname, hmoved⟩ := FileTree.of_move? hmove
  -- what is moved is what was written
  obtain rfl : FileContent.text text = content := by
    simpa using hwritten.entry?_self.symm.trans hsource
  have hremoved := FileTree.isDirectory_remove hsource
  have hdirectories (place : Place) : files.isDirectory place = written.isDirectory place :=
    (hmoved.directories place).trans (hremoved place)
  have htarget' : files.place? f.path = some target :=
    (FileTree.place?_congr hdirectories f.path).trans htarget
  have htemporary' : after.temporaryPlace? files = some temporary := by
    rw [temporaryPlace?_congr hdirectories, temporaryPlace?_congr hwritten.directories]
    exact htemporary
  have hne : placeText temporary ≠ placeText target :=
    placeText_temporary_ne (f := after) htarget' htemporary'
  refine ⟨?_, ⟨temporary, htemporary', ?_⟩, fun place hprofile hother => ?_⟩
  · rw [FileTree.contentAt?_eq htarget', hname, if_neg Bool.false_ne_true]
    exact FileTree.content?_eq_some_iff.mpr hmoved.entry?_self
  · rw [hmoved.entries, if_neg fun hsame => hne hsame.2, FileTree.entry?_remove,
      if_pos ⟨hwritten.origin, rfl⟩]
  · have hplace : placeText place ≠ placeText target :=
      fun htext => hprofile ⟨target, htarget', htext⟩
    have hplace' : placeText place ≠ placeText temporary :=
      fun htext => hother ⟨temporary, htemporary', htext⟩
    rw [hmoved.content?_of_ne hplace, FileTree.content?_remove_of_ne hplace',
      hwritten.content?_of_ne hplace', hextends.contents]

/-- What could not be stored leaves all files alone but the temporary one. -/
theorem unstored_of_storeOn (h : f.storeOn text trouble = .error files) :
    let after : ProfileFile := { f with files }
    (∀ place, ¬ after.IsTemporary place → files.content? place = f.files.content? place) ∧
    ∀ target, f.files.place? f.path = some target → files.place? f.path = some target := by
  intro after
  have hextends := f.extends_createOn trouble
  rcases left_of_storeOn h with rfl | ⟨temporary, content, htemporary, hwrites⟩
  · exact ⟨fun place _ => hextends.contents place,
      fun target htarget => FileTree.place?_of_directories hextends.directories htarget⟩
  · refine ⟨fun place hother => ?_, fun target htarget => ?_⟩
    · have htemporary' : after.temporaryPlace? files = some temporary :=
        (temporaryPlace?_congr hwrites.directories).trans htemporary
      rw [hwrites.content?_of_ne fun htext => hother ⟨temporary, htemporary', htext⟩,
        hextends.contents]
    · rw [FileTree.place?_congr hwrites.directories]
      exact FileTree.place?_of_directories hextends.directories htarget

/-- Under a path that does not lead up, what could not be stored stands nowhere: there is nothing at
the path unless there was something before. -/
theorem holds_of_storeOn_error (hdots : ".." ∉ f.path.parts)
    (h : f.storeOn text trouble = .error files) (hholds : files.holds f.path = true) :
    f.files.holds f.path = true := by
  by_cases htext : f.path.text = ""
  · simp [FileTree.holds, FileTree.find?, FileTree.place?, htext] at hholds
  have hbefore := f.files.place?_of_not_mem htext hdots
  have hafter := files.place?_of_not_mem htext hdots
  rw [FileTree.holds_iff hafter] at hholds
  rw [FileTree.holds_iff hbefore]
  rcases hholds with hdirectory | ⟨hfile, hnames⟩
  · -- the directories that were created stand on the way to the place, not at it
    have hmade : (reached (f.createOn trouble)).isDirectory
        (FileTree.origin f.path ++ f.path.parts) = true := by
      rcases left_of_storeOn h with rfl | ⟨temporary, content, -, hwrites⟩
      · exact hdirectory
      · rwa [hwrites.directories] at hdirectory
    rcases of_isDirectory_createOn hdots hmade with hdirectory | ⟨front, hfront, htext⟩
    · exact .inl hdirectory
    · obtain ⟨names, hparts⟩ := hfront.trans (List.dropLast_prefix _)
      have hshort := hfront.length_le
      rw [List.length_dropLast, ← hparts, List.length_append] at hshort
      by_cases hnames : names = []
      · -- there is no way to go, so the place is one that is always there
        have hempty : f.path.parts = [] := by
          rw [← hparts, hnames, List.append_nil]
          refine List.eq_nil_of_length_eq_zero ?_
          rw [hnames, List.length_nil] at hshort
          omega
        rw [hempty, List.append_nil]
        exact .inl (FileTree.isDirectory_origin _ _)
      · have hnonempty : ∀ name ∈ names, name ≠ "" := fun name hname =>
          Path.ne_empty_of_mem_parts (hparts ▸ List.mem_append_right _ hname)
        have hlonger := FileTree.length_placeText_append_lt names
          (FileTree.origin f.path ++ front) hnames hnonempty
        rw [List.append_assoc, hparts, htext] at hlonger
        exact absurd hlonger (Nat.lt_irrefl _)
  · have hprofile : IsProfile { f with files } (FileTree.origin f.path ++ f.path.parts) :=
      ⟨_, hafter, rfl⟩
    obtain ⟨hothers, -⟩ := unstored_of_storeOn h
    rw [hothers _ hprofile.not_isTemporary] at hfile
    exact .inr ⟨hfile, hnames⟩

/-- What could not be stored leaves what the path leads to as it was, unless the path leads up, led
nowhere before, and now leads to something. -/
theorem contentAt?_of_storeOn_error (h : f.storeOn text trouble = .error files) :
    files.contentAt? f.path = f.files.contentAt? f.path ∨
      ".." ∈ f.path.parts ∧ f.files.place? f.path = none ∧ files.holds f.path = true := by
  cases hbefore : f.files.place? f.path with
  | some target =>
    -- the path leads where it led, and not to the temporary file
    obtain ⟨hothers, hplace⟩ := unstored_of_storeOn h
    have hafter := hplace target hbefore
    have hprofile : IsProfile { f with files } target := ⟨target, hafter, rfl⟩
    left
    rw [FileTree.contentAt?_eq hbefore, FileTree.contentAt?_eq hafter,
      hothers target hprofile.not_isTemporary]
  | none =>
    cases hholds : files.holds f.path with
    | false =>
      left
      rw [FileTree.contentAt?_of_holds_eq_false hholds, FileTree.contentAt?, FileTree.find?, hbefore]
      rfl
    | true =>
      right
      refine ⟨?_, rfl, rfl⟩
      by_contra hdots
      have hthere := holds_of_storeOn_error hdots h hholds
      simp [FileTree.holds, FileTree.find?, hbefore] at hthere

/-- What could not be stored leaves what is loaded as it was, unless the directories that were
created make the path lead to something where it led to nothing. -/
theorem load_of_storeOn_error {p : Profile Binary64} (h : f.storeOn text trouble = .error files)
    (hload : f.load = .ok p)
    (hholds : files.holds f.path = true → f.files.holds f.path = true) :
    load { f with files } = .ok p := by
  rcases of_load hload with ⟨habsent, rfl⟩ | ⟨stored, hstored, hprofile⟩
  · have hnothing : files.holds f.path = false :=
      Bool.eq_false_iff.mpr fun hthere => by simp [hholds hthere] at habsent
    simp only [load, hnothing, Bool.false_eq_true, if_false]
  · rcases contentAt?_of_storeOn_error h with hkept | ⟨-, hnowhere, -⟩
    · exact (load_of_contentAt? (f := { f with files }) (hkept.trans hstored)).trans hprofile
    · -- there was a file, so the path did lead somewhere
      simp [FileTree.contentAt?, FileTree.find?, hnowhere] at hstored

/-- A profile that was saved is loaded again if all its amounts are finite, and is not loaded
otherwise. -/
theorem load_of_save {after : ProfileFile} {p : Profile Binary64}
    (h : f.save p = (.ok (), after)) (hback : p.ReadsBack) :
    after.load = if p.IsFinite then .ok p else .error .malformedJson := by
  unfold save saveOn at h
  cases hstore : f.storeOn (Json.write p.toNode) none with
  | ok files =>
    rw [hstore] at h
    obtain ⟨hcontent, -⟩ := stored_of_storeOn hstore
    obtain ⟨-, rfl⟩ := Prod.mk.inj h
    exact (load_of_contentAt? hcontent).trans (profileOf_write hback)
  | error files =>
    rw [hstore] at h
    exact nomatch (Prod.mk.inj h).1

/-- **Saving a profile stores all of it or nothing**, on every file tree, under every path, and
wherever the disk fails. If it succeeds, the profile is loaded again as it is, if its amounts are
finite; there is no temporary file, and no other file has changed. If it fails, no file has changed
but for the temporary one, so that what the profile file held before is still there.

A path that leads up through a directory that was created can lead to another file then. That is the
one way in which anything else is found at the path after a failure (`saveOn_lostDirectory`). -/
theorem saveOn_roundTrip (f : ProfileFile) (p : Profile Binary64) (trouble : Option Trouble)
    (hfinite : p.IsFinite) (hback : p.ReadsBack) :
    let saved := (f.saveOn p trouble).1.isOk
    let after := (f.saveOn p trouble).2
    (saved = true →
      after.path = f.path ∧ after.load = .ok p ∧
      (∃ temporary, after.temporaryPlace? after.files = some temporary ∧
        after.files.entry? temporary = none) ∧
      ∀ place, ¬ after.IsProfile place → ¬ after.IsTemporary place →
        after.files.content? place = f.files.content? place) ∧
    (saved = false →
      (∀ place, ¬ after.IsTemporary place →
        after.files.content? place = f.files.content? place) ∧
      (∀ place, after.IsProfile place → after.files.content? place = f.files.content? place) ∧
      (after.files.contentAt? f.path = f.files.contentAt? f.path ∨
        ".." ∈ f.path.parts ∧ f.files.place? f.path = none ∧
          after.files.holds f.path = true)) := by
  unfold saveOn
  cases hstore : f.storeOn (Json.write p.toNode) trouble with
  | ok files =>
    obtain ⟨hcontent, htemporary, hothers⟩ := stored_of_storeOn hstore
    refine ⟨fun _ => ⟨rfl, ?_, htemporary, hothers⟩, nofun⟩
    rw [load_of_contentAt? hcontent, profileOf_write hback, if_pos hfinite]
  | error files =>
    obtain ⟨hothers, -⟩ := unstored_of_storeOn hstore
    exact ⟨nofun, fun _ => ⟨hothers, fun place hprofile => hothers place hprofile.not_isTemporary,
      contentAt?_of_storeOn_error hstore⟩⟩

/-- A profile with texts that are escaped, a negative zero and a number that needs many digits. -/
def roundTripProfile : Profile Binary64 where
  settings :=
    { Settings.empty with
      toggles := .ofList [("双倍\n", true), ("", false)]
      allocation := { BucketTable.empty with travel := some 70 }
      tierLevel := 2
      preferences := .ofList [("\"airline\"", "c:\\")] }
  ledger := ⟨.ofList [("k", ⟨0x4029000000000000⟩), ("card_spend:card", ⟨0x3FB999999999999A⟩),
    ("reset", ⟨0x8000000000000000⟩)]⟩
  totals := ⟨⟨0x7FEFFFFFFFFFFFFF⟩, ⟨1⟩, 18446744073709551615⟩

/-- It is stored where neither the file nor its directory is there yet, and loaded again. Where
there is a file and the new one cannot take its place, the old one stays. -/
theorem saveOn_roundTrip_escaped :
    let path : Path := ⟨"data/profile.json"⟩
    let fresh : ProfileFile := ⟨.empty, path⟩
    let used : ProfileFile := ⟨.ofFiles [("data/profile.json", .text "old")], path⟩
    (fresh.saveOn roundTripProfile none).2.load = .ok roundTripProfile ∧
      (used.saveOn roundTripProfile (some .moving)).2.files.contentAt? path = some (.text "old") := by
  intro path fresh used
  have hfinite : roundTripProfile.IsFinite := by decide +kernel
  have hback : roundTripProfile.ReadsBack := by decide +kernel
  obtain ⟨hsaved, -⟩ := saveOn_roundTrip fresh roundTripProfile none hfinite hback
  obtain ⟨-, hfailed⟩ := saveOn_roundTrip used roundTripProfile (some .moving) hfinite hback
  obtain ⟨-, hload, -⟩ := hsaved (by decide +kernel)
  obtain ⟨-, -, hkept⟩ := hfailed (by decide +kernel)
  have hstraight : ".." ∉ path.parts := by decide +kernel
  refine ⟨hload, ?_⟩
  rcases hkept with hsame | ⟨hdots, -⟩
  · exact hsame.trans (by decide +kernel)
  · exact absurd hdots hstraight

/-- A profile that could not be saved can leave another file at its path. A directory stands where
the temporary file belongs, so nothing is stored. But now there is the directory `a`, and the path,
which led nowhere, leads through it to a file. -/
theorem saveOn_lostDirectory :
    let files : FileTree := .ofFiles [("p.json", .text "old"), ("p.json.tmp/x", .text "")]
    let f : ProfileFile := ⟨files, ⟨"a/../p.json"⟩⟩
    Profile.empty.IsFinite ∧ Profile.empty.ReadsBack ∧ (f.saveOn .empty none).1.isOk = false ∧
      f.files.contentAt? f.path = none ∧
      (f.saveOn .empty none).2.files.contentAt? f.path = some (.text "old") := by
  decide +kernel

end ProfileFile

end CardRewards
