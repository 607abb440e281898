import CardRewards.CommandLine.Run
import CardRewards.Proofs.Storage.ProfileFile
import CardRewards.Scheme.Sample
import Mathlib.Data.List.Infix

/-!
# Commands work like an account in memory

Every command starts from the files: it loads the profile from its text, works out the answer, and
stores the new profile as a text again. Here the commands are answered from an account in memory
beside it (`serve`), where nothing is written or read, and the two are run side by side, the account
following the commands that were carried out (`Shadowed.run`). After any number of runs the profile
that is loaded is the one in memory, and the answers are the same, except where a profile could not
be read or stored: `Shadowed.refines_memory`. Any run may meet with a disk that fails at something
and with an output that does not take the answer.

A command either leaves an account alone or settles a new profile in it, and which of the two, with
what profile and what answer, depends on the profile alone (`serve_cases`). So all that can tell the
files from the memory is whether they give and take a profile.

Two things can be left of a run that fails (`Shadowed.failed_runs_leave_traces`). The answer is
printed last, so a command whose answer could not be printed was carried out all the same. And where
a profile could not be stored directories may stay behind, through which a path that leads up can
come to lead somewhere. Then the file there is loaded, although no command has stored it.
-/

namespace CardRewards.CommandLine

/-- Whether a command only reads. -/
def Command.readsOnly : Command → Bool
  | .evaluate _ _ _ | .registry | .audit => true
  | .commit _ _ _ _ | .advanceTier => false

/-! ## Commands on accounts -/

section

variable {σ : Type} [ProfileStore σ Binary64]

/-- The quote of a card that a command asks to book. -/
def quoteAsked (b : RuleBook Binary64) (default : DisplayMode) (profile : Profile Binary64)
    (card : String) (amount : Binary64) (category : String) (asked : Option String) :
    Except CommandFault (Quote Binary64) := do
  let mode ← modeOr default asked
  attempting none (b.quoteCard card amount category mode profile)

/-- The quotes of all cards that a command asks for. -/
def quotesAsked (b : RuleBook Binary64) (default : DisplayMode) (profile : Profile Binary64)
    (amount : Binary64) (category : String) (asked : Option String) :
    Except CommandFault (List (Quote Binary64)) := do
  let mode ← modeOr default asked
  attempting none (b.quoteAll amount category mode profile)

/-- Answer a command from an account, wherever its profile is kept. To book a purchase is to quote
it for the current profile and to book that quote. -/
def serve (b : RuleBook Binary64) (default : DisplayMode) (a : Account σ Binary64) :
    Command → Except CommandFault Node × Account σ Binary64
  | .evaluate amount category asked =>
    ((quotesAsked b default a.profile amount category asked).map fun quotes =>
      .list (quotes.map Quote.toNode), a)
  | .commit card amount category asked =>
    match quoteAsked b default a.profile card amount category asked with
    | .error fault => (.error fault, a)
    | .ok quote =>
      let (result, a) := b.commit a quote
      (attempting none (result.map Receipt.toNode), a)
  | .registry => (.ok b.scheme.schedule.toNode, a)
  | .advanceTier =>
    let (result, a) := b.advanceTier a
    (attempting none (result.map TierStep.toNode), a)
  | .audit => (.ok (.list (b.findings.map Finding.toNode)), a)

/-- Settle a new profile in an account, with an answer as a document. -/
def settleNode (a : Account σ Binary64) (profile : Profile Binary64) (node : Node) :
    Except CommandFault Node × Account σ Binary64 :=
  (attempting none (a.settle profile node).1, (a.settle profile node).2)

theorem settleNode_eq {β : Type} (a : Account σ Binary64) (profile : Profile Binary64) (answer : β)
    (write : β → Node) :
    (attempting none ((a.settle profile answer).1.map write), (a.settle profile answer).2) =
      settleNode a profile (write answer) := by
  unfold settleNode Account.settle
  cases hsave : ProfileStore.save a.store profile with
  | mk saved store => cases saved <;> rfl

end

/-- What a command does is settled by the profile: it leaves every account with this profile alone,
or settles the same new profile in each of them, with the same answer. -/
theorem serve_cases (b : RuleBook Binary64) (default : DisplayMode) (p : Profile Binary64)
    (c : Command) :
    (∃ answer, ∀ (σ : Type) [ProfileStore σ Binary64] (store : σ),
      serve b default ⟨p, store⟩ c = (answer, ⟨p, store⟩)) ∨
    ∃ profile node, ∀ (σ : Type) [ProfileStore σ Binary64] (store : σ),
      serve b default ⟨p, store⟩ c = settleNode ⟨p, store⟩ profile node := by
  cases c with
  | evaluate amount category asked =>
    exact .inl ⟨(quotesAsked b default p amount category asked).map fun quotes =>
      .list (quotes.map Quote.toNode), fun σ _ store => rfl⟩
  | registry => exact .inl ⟨.ok b.scheme.schedule.toNode, fun σ _ store => rfl⟩
  | audit => exact .inl ⟨.ok (.list (b.findings.map Finding.toNode)), fun σ _ store => rfl⟩
  | commit card amount category asked =>
    cases hquote : quoteAsked b default p card amount category asked with
    | error fault =>
      refine .inl ⟨.error fault, fun σ _ store => ?_⟩
      simp only [serve, hquote]
    | ok quote =>
      cases hcard : b.scheme.card? quote.cardId with
      | none =>
        refine .inl ⟨.error ⟨.cardNotFound quote.cardId, none⟩, fun σ _ store => ?_⟩
        simp only [serve, hquote, RuleBook.commit, hcard]
        rfl
      | some held =>
        refine .inr ⟨p.book quote, (p.receipt quote).toNode, fun σ _ store => ?_⟩
        simp only [serve, hquote, RuleBook.commit, hcard]
        exact settleNode_eq _ _ _ Receipt.toNode
  | advanceTier =>
    cases hprogram : b.scheme.tierProgram with
    | none =>
      refine .inl ⟨.error ⟨.tierProgramMissing, none⟩, fun σ _ store => ?_⟩
      simp only [serve, RuleBook.advanceTier, hprogram]
      rfl
    | some program =>
      refine .inr ⟨program.advance p, (program.stepFrom p.settings.tierLevel).toNode,
        fun σ _ store => ?_⟩
      simp only [serve, RuleBook.advanceTier, hprogram]
      exact settleNode_eq _ _ _ TierStep.toNode

/-- A store in memory takes every profile. -/
theorem settleNode_memory (p : Profile Binary64) (store : MemoryStore Binary64)
    (profile : Profile Binary64) (node : Node) :
    settleNode ⟨p, store⟩ profile node = (.ok node, ⟨profile, ⟨profile⟩⟩) := rfl

/-- A profile file takes a profile if it can be stored. -/
theorem settleNode_onDisk (p : Profile Binary64) (f : ProfileFile) (disk : ProfileFile.Disk)
    (profile : Profile Binary64) (node : Node) :
    settleNode (⟨p, f, disk⟩ : Account ProfileFile.OnDisk Binary64) profile node =
      match f.storeOn (Json.write profile.toNode) disk.trouble with
      | .ok files => (.ok node, ⟨profile, { f with files }, disk⟩)
      | .error files =>
        (.error ⟨.notStored (.blocked f.path.text), none⟩, ⟨p, { f with files }, disk⟩) := by
  simp only [settleNode, Account.settle, ProfileStore.save, ProfileFile.OnDisk.save,
    ProfileFile.saveOn]
  cases f.storeOn (Json.write profile.toNode) disk.trouble <;> rfl

namespace Desk

variable {d : Desk} {disk : ProfileFile.Disk} {p : Profile Binary64}

/-- A profile that can be loaded is loaded, unless the disk does not let it be read. -/
theorem loadProfile_cases (hload : d.profile.load = .ok p) (disk : ProfileFile.Disk) :
    d.loadProfile disk = .ok p ∨
      disk.readable = false ∧ d.loadProfile disk = .error ⟨.unreadable, some .loadProfile⟩ := by
  unfold loadProfile ProfileFile.OnDisk.load
  split
  next hunread =>
    obtain ⟨-, hunreadable⟩ := Bool.and_eq_true_iff.mp hunread
    exact .inr ⟨by simpa using hunreadable, rfl⟩
  next =>
    left
    rw [hload]
    rfl

/-- A command is carried out by answering it from the account that is loaded. -/
theorem carryOut_eq_serve (hloaded : d.loadProfile disk = .ok p) (c : Command) :
    d.carryOut disk c = ((serve d.book d.mode (d.account disk p) c).1,
      (serve d.book d.mode (d.account disk p) c).2.store.file.files) := by
  cases c with
  | evaluate amount category asked =>
    simp only [carryOut, serve, unchanged, evaluate, quotesAsked, hloaded, account]
    cases modeOr d.mode asked with
    | error fault => rfl
    | ok mode =>
      simp only [bind, Except.bind]
      cases attempting none (d.book.quoteAll amount category mode p) <;> rfl
  | commit card amount category asked =>
    simp only [carryOut, serve, quoteToCommit, quoteAsked, hloaded, account]
    cases modeOr d.mode asked with
    | error fault => rfl
    | ok mode =>
      simp only [bind, Except.bind]
      cases attempting none (d.book.quoteCard card amount category mode p) <;> rfl
  | registry => rfl
  | advanceTier =>
    simp only [carryOut, serve, hloaded, account]
    rfl
  | audit => rfl

/-- Where the profile is not loaded, a command is answered without it or fails for want of it. -/
theorem carryOut_of_not_loaded {fault : CommandFault} (hloaded : d.loadProfile disk = .error fault)
    (c : Command) :
    (∃ answer, d.carryOut disk c = (answer, d.profile.files) ∧
      ∀ (p : Profile Binary64) (store : MemoryStore Binary64),
        serve d.book d.mode ⟨p, store⟩ c = (answer, ⟨p, store⟩)) ∨
    d.carryOut disk c = (.error fault, d.profile.files) := by
  cases c with
  | evaluate amount category asked =>
    cases hmode : modeOr d.mode asked with
    | error wrong =>
      refine .inl ⟨.error wrong, ?_, fun p store => ?_⟩
      · simp only [carryOut, unchanged, evaluate, hmode]
        rfl
      · simp only [serve, quotesAsked, hmode]
        rfl
    | ok mode =>
      right
      simp only [carryOut, unchanged, evaluate, hmode, hloaded]
      rfl
  | commit card amount category asked =>
    cases hmode : modeOr d.mode asked with
    | error wrong =>
      refine .inl ⟨.error wrong, ?_, fun p store => ?_⟩
      · simp only [carryOut, quoteToCommit, hmode]
        rfl
      · simp only [serve, quoteAsked, hmode]
        rfl
    | ok mode =>
      right
      simp only [carryOut, quoteToCommit, hmode, hloaded]
      rfl
  | registry => exact .inl ⟨_, rfl, fun p store => rfl⟩
  | advanceTier =>
    right
    simp only [carryOut, hloaded]
    rfl
  | audit => exact .inl ⟨_, rfl, fun p store => rfl⟩

/-- A command that only reads changes no file. -/
theorem files_carryOut_of_readsOnly (d : Desk) (disk : ProfileFile.Disk) {c : Command}
    (h : c.readsOnly = true) : (d.carryOut disk c).2 = d.profile.files := by
  cases c with
  | evaluate amount category asked => rfl
  | commit card amount category asked => exact absurd h Bool.false_ne_true
  | registry => rfl
  | advanceTier => exact absurd h Bool.false_ne_true
  | audit => rfl

/-- What a command comes to on files that a profile is loaded from, if any is, and beside it what it
comes to in memory. -/
inductive Outcome (d : Desk) (disk : ProfileFile.Disk) (p : Profile Binary64) (c : Command) : Prop
  | unchanged (answer : Except CommandFault Node)
      (done : d.carryOut disk c = (answer, d.profile.files))
      (served : ∀ store : MemoryStore Binary64,
        serve d.book d.mode ⟨p, store⟩ c = (answer, ⟨p, store⟩))
  | unloaded (fault : CommandFault) (cause : d.loadProfile disk = .error fault)
      (done : d.carryOut disk c = (.error fault, d.profile.files))
  | stored (profile : Profile Binary64) (node : Node) (files : FileTree)
      (took : d.profile.storeOn (Json.write profile.toNode) disk.trouble = .ok files)
      (done : d.carryOut disk c = (.ok node, files))
      (served : ∀ store : MemoryStore Binary64,
        serve d.book d.mode ⟨p, store⟩ c = (.ok node, ⟨profile, ⟨profile⟩⟩))
  | unstored (profile : Profile Binary64) (node : Node) (cause : StoreFault) (files : FileTree)
      (refused : d.profile.storeOn (Json.write profile.toNode) disk.trouble = .error files)
      (done : d.carryOut disk c = (.error ⟨.notStored cause, none⟩, files))
      (served : ∀ store : MemoryStore Binary64,
        serve d.book d.mode ⟨p, store⟩ c = (.ok node, ⟨profile, ⟨profile⟩⟩))

theorem outcome (hprofile : ∀ q, d.loadProfile disk = .ok q → q = p) (c : Command) :
    d.Outcome disk p c := by
  cases hloaded : d.loadProfile disk with
  | error fault =>
    rcases carryOut_of_not_loaded hloaded c with ⟨answer, hdone, hserved⟩ | hdone
    · exact .unchanged answer hdone (hserved p)
    · exact .unloaded fault hloaded hdone
  | ok q =>
    obtain rfl := hprofile q hloaded
    have hdone := carryOut_eq_serve hloaded c
    rcases serve_cases d.book d.mode q c with ⟨answer, hserve⟩ | ⟨profile, node, hserve⟩
    · rw [account, hserve] at hdone
      exact .unchanged answer hdone fun store => hserve (MemoryStore Binary64) store
    · have hserved : ∀ store : MemoryStore Binary64,
          serve d.book d.mode ⟨q, store⟩ c = (.ok node, ⟨profile, ⟨profile⟩⟩) := fun store =>
        (hserve (MemoryStore Binary64) store).trans (settleNode_memory q store profile node)
      rw [account, hserve, settleNode_onDisk] at hdone
      cases hstore : d.profile.storeOn (Json.write profile.toNode) disk.trouble with
      | ok files =>
        rw [hstore] at hdone
        exact .stored profile node files hstore hdone hserved
      | error files =>
        rw [hstore] at hdone
        exact .unstored profile node _ files hstore hdone hserved

/-- A command that fails leaves all files alone but the temporary one. -/
theorem content?_carryOut_of_error {c : Command} (h : (d.carryOut disk c).1.isOk = false)
    {place : Place}
    (hplace : ¬ ProfileFile.IsTemporary { d.profile with files := (d.carryOut disk c).2 } place) :
    (d.carryOut disk c).2.content? place = d.profile.files.content? place := by
  have houtcome : ∃ p, d.Outcome disk p c := by
    cases hloaded : d.loadProfile disk with
    | ok p => exact ⟨p, d.outcome (fun q hq => Except.ok.inj (hq.symm.trans hloaded)) c⟩
    | error fault => exact ⟨.empty, d.outcome (fun q hq => nomatch hq.symm.trans hloaded) c⟩
  obtain ⟨p, houtcome⟩ := houtcome
  cases houtcome with
  | unchanged answer done served => rw [done]
  | unloaded fault cause done => rw [done]
  | stored profile node files took done served =>
    rw [done] at h
    exact absurd h.symm Bool.false_ne_true
  | unstored profile node cause files refused done served =>
    rw [done] at hplace ⊢
    exact (ProfileFile.unstored_of_storeOn refused).1 place hplace

end Desk

/-! ## Runs -/

/-- A run: a command, and what it meets with. -/
structure Run where
  command : Command
  conditions : Conditions

/-- Whether a run that comes to this has carried out its command. It has if the answer alone could
not be printed. -/
def carriedOut : Except RunFault Node → Bool
  | .ok _ => true
  | .error (.unprinted _) => true
  | .error (.failed _) => false

theorem carriedOut_print (conditions : Conditions) (answer : Except CommandFault Node) :
    carriedOut (conditions.print answer) = answer.isOk := by
  cases answer with
  | error fault => rfl
  | ok node =>
    unfold Conditions.print
    cases conditions.refusal <;> rfl

namespace Desk

variable {d : Desk} {p : Profile Binary64} {r : Run}

/-- What a run comes to, and the files after it. -/
def result (d : Desk) (r : Run) : Except RunFault Node × FileTree := d.run r.conditions r.command

/-- The desk after a run. -/
def after (d : Desk) (r : Run) : Desk :=
  { d with profile := { d.profile with files := (d.result r).2 } }

/-- A run carries out its command, and then prints the answer. -/
theorem result_eq {answer : Except CommandFault Node} {files : FileTree}
    (done : d.carryOut r.conditions.disk r.command = (answer, files)) :
    d.result r = (r.conditions.print answer, files) := by
  rw [result, run, done]

/-- A run that has not carried out its command leaves all files alone but the temporary one. -/
theorem content?_result_of_not_carriedOut (h : carriedOut (d.result r).1 = false) {place : Place}
    (hplace : ¬ (d.after r).profile.IsTemporary place) :
    (d.result r).2.content? place = d.profile.files.content? place := by
  unfold after at hplace
  rw [result_eq rfl] at h hplace ⊢
  rw [carriedOut_print] at h
  exact content?_carryOut_of_error h hplace

/-- A run that has not carried out its command does not make the path of the profile lead to
something where it led to nothing. -/
def KeepsAbsence (d : Desk) (r : Run) : Prop :=
  carriedOut (d.result r).1 = false → (d.after r).profile.files.holds d.profile.path = true →
    d.profile.files.holds d.profile.path = true

/-- What a run comes to at a desk whose profile can be loaded. -/
theorem outcome_of_load (hload : d.profile.load = .ok p) (r : Run) :
    d.Outcome r.conditions.disk p r.command := by
  refine d.outcome (fun q hq => ?_) r.command
  rcases loadProfile_cases hload r.conditions.disk with hloaded | ⟨-, hunloaded⟩
  · exact Except.ok.inj (hq.symm.trans hloaded)
  · exact nomatch hq.symm.trans hunloaded

/-- Where the path of the profile does not lead up, no run that fails makes it lead anywhere. -/
theorem keepsAbsence_of_not_mem (hload : d.profile.load = .ok p)
    (hdots : ".." ∉ d.profile.path.parts) (r : Run) : d.KeepsAbsence r := by
  intro hfailed hholds
  rw [after] at hholds
  cases d.outcome_of_load hload r with
  | unchanged answer done served =>
    rw [result_eq done] at hholds
    exact hholds
  | unloaded fault cause done =>
    rw [result_eq done] at hholds
    exact hholds
  | stored profile node files took done served =>
    rw [result_eq done, carriedOut_print] at hfailed
    exact absurd hfailed.symm Bool.false_ne_true
  | unstored profile node cause files refused done served =>
    rw [result_eq done] at hholds
    exact ProfileFile.holds_of_storeOn_error hdots refused hholds

end Desk

/-! ## Side by side -/

/-- A desk, and an account in memory beside it. -/
structure Shadowed where
  desk : Desk
  memory : Account (MemoryStore Binary64) Binary64

namespace Shadowed

/-- The answer that the account in memory gives to a command, and the account after it. -/
def served (s : Shadowed) (c : Command) :
    Except CommandFault Node × Account (MemoryStore Binary64) Binary64 :=
  serve s.desk.book s.desk.mode s.memory c

/-- A run at the desk. The account follows if the command was carried out. -/
def run (s : Shadowed) (r : Run) : Shadowed where
  desk := s.desk.after r
  memory := if carriedOut (s.desk.result r).1 then (s.served r.command).2 else s.memory

/-- Some runs, one after another. -/
def after (s : Shadowed) (runs : List Run) : Shadowed := runs.foldl run s

/-- Whether the profile that is loaded is the one in memory. -/
def InStep (s : Shadowed) : Prop := s.desk.profile.load = .ok s.memory.profile

instance (s : Shadowed) : Decidable s.InStep := inferInstanceAs (Decidable (_ = _))

/-- What is right about a run at the desk. -/
structure Faithful (s : Shadowed) (r : Run) : Prop where
  /-- The answer from memory is printed, unless there is a file that the disk does not let be read,
  or the profile that is in memory afterwards cannot be stored. -/
  answer : (s.desk.result r).1 = r.conditions.print (s.served r.command).1 ∨
    (r.conditions.disk.readable = false ∧
      (s.desk.result r).1 = .error (.failed ⟨.unreadable, some .loadProfile⟩)) ∨
    ∃ cause files, s.desk.profile.storeOn (Json.write (s.served r.command).2.profile.toNode)
        r.conditions.disk.trouble = .error files ∧
      (s.desk.result r).1 = .error (.failed ⟨.notStored cause, none⟩)
  reading : r.command.readsOnly = true → (s.desk.result r).2 = s.desk.profile.files
  failing : carriedOut (s.desk.result r).1 = false →
    ∀ place, ¬ (s.desk.after r).profile.IsTemporary place →
      (s.desk.result r).2.content? place = s.desk.profile.files.content? place

variable {s : Shadowed}

theorem InStep.faithful (h : s.InStep) (r : Run) : s.Faithful r where
  answer := by
    cases s.desk.outcome_of_load h r with
    | unchanged answer done served =>
      left
      rw [Desk.result_eq done, Shadowed.served, served s.memory.store]
    | unloaded fault cause done =>
      right; left
      rw [Desk.result_eq done]
      rcases Desk.loadProfile_cases h r.conditions.disk with hloaded | ⟨hunreadable, hunloaded⟩
      · exact nomatch cause.symm.trans hloaded
      · obtain rfl := Except.error.inj (cause.symm.trans hunloaded)
        exact ⟨hunreadable, rfl⟩
    | stored profile node files took done served =>
      left
      rw [Desk.result_eq done, Shadowed.served, served s.memory.store]
    | unstored profile node cause files refused done served =>
      right; right
      rw [Desk.result_eq done, Shadowed.served, served s.memory.store]
      exact ⟨cause, files, refused, rfl⟩
  reading := s.desk.files_carryOut_of_readsOnly r.conditions.disk
  failing hfailed _ hplace := Desk.content?_result_of_not_carriedOut hfailed hplace

/-- A run keeps the files and the memory in step. -/
theorem InStep.run (h : s.InStep) {r : Run} (hfinite : (s.run r).memory.profile.IsFinite)
    (hback : (s.run r).memory.profile.ReadsBack) (habsent : s.desk.KeepsAbsence r) :
    (s.run r).InStep := by
  unfold InStep Shadowed.run Desk.after at *
  cases s.desk.outcome_of_load h r with
  | unchanged answer done served =>
    have hmemory : (s.served r.command).2 = s.memory := by
      rw [Shadowed.served, served s.memory.store]
    rw [Desk.result_eq done, hmemory, ite_self]
    exact h
  | unloaded fault cause done =>
    rw [Desk.result_eq done]
    exact h
  | stored profile node files took done served =>
    have hmemory : (s.served r.command).2.profile = profile := by
      rw [Shadowed.served, served s.memory.store]
    rw [Desk.result_eq done, carriedOut_print] at hfinite hback ⊢
    simp only [Except.isOk, Except.toBool, if_true, hmemory] at hfinite hback ⊢
    obtain ⟨hcontent, -⟩ := ProfileFile.stored_of_storeOn took
    refine (ProfileFile.load_of_contentAt? hcontent).trans ?_
    rw [ProfileFile.profileOf_write hback, if_pos hfinite]
  | unstored profile node cause files refused done served =>
    have hkept : files.holds s.desk.profile.path = true →
        s.desk.profile.files.holds s.desk.profile.path = true := by
      intro hholds
      refine habsent (by rw [Desk.result_eq done]; rfl) ?_
      rw [Desk.after, Desk.result_eq done]
      exact hholds
    rw [Desk.result_eq done]
    exact ProfileFile.load_of_storeOn_error refused h hkept

/-- Runs keep the files and the memory in step, as long as all amounts are finite. -/
theorem InStep.after : ∀ {runs : List Run} {s : Shadowed}, s.InStep →
    (∀ front, front <+: runs →
      (s.after front).memory.profile.IsFinite ∧ (s.after front).memory.profile.ReadsBack) →
    (".." ∈ s.desk.profile.path.parts → ∀ front r, front ++ [r] <+: runs →
      (s.after front).desk.KeepsAbsence r) →
    (s.after runs).InStep
  | [], s, h, _, _ => h
  | r :: rest, s, h, hprofiles, habsent => by
    have hfirst : [r] <+: r :: rest := List.prefix_append [r] rest
    have hkeeps : s.desk.KeepsAbsence r := by
      by_cases hdots : ".." ∈ s.desk.profile.path.parts
      · exact habsent hdots [] r hfirst
      · exact s.desk.keepsAbsence_of_not_mem h hdots r
    obtain ⟨hfinite, hback⟩ := hprofiles [r] hfirst
    refine InStep.after (s := s.run r) (h.run hfinite hback hkeeps) (fun front hfront => ?_)
      (fun hdots front next hfront => ?_)
    · exact hprofiles (r :: front) ((List.prefix_cons_inj r).mpr hfront)
    · exact habsent hdots (r :: front) next ((List.prefix_cons_inj r).mpr hfront)

/-- **Running commands on files refines running them in memory.** Take any runs, one after another,
at a desk whose profile file is absent or holds a profile, and an account in memory that starts with
that profile and follows the runs that carry out their command: those that succeed, and those that
fail at printing the answer only. As long as all amounts are finite, and read back from their texts,
the profile that is loaded is the one in memory after every run, and the answers are those from
memory, unless the profile could not be read or stored. A command that only reads changes no file,
and a run that does not carry out its command no file but the temporary one.

Every run may meet with a disk and an output that fail in their own ways. The path of the profile
may lead up only where no run that fails makes it lead to something. -/
theorem refines_memory {d : Desk} {p : Profile Binary64} (hload : d.profile.load = .ok p)
    (runs : List Run) :
    let start : Shadowed := ⟨d, ⟨p, ⟨p⟩⟩⟩
    (∀ front, front <+: runs →
      (start.after front).memory.profile.IsFinite ∧
        (start.after front).memory.profile.ReadsBack) →
    (".." ∈ d.profile.path.parts → ∀ front r, front ++ [r] <+: runs →
      (start.after front).desk.KeepsAbsence r) →
    ∀ front, front <+: runs →
      (start.after front).InStep ∧
      ∀ r, front ++ [r] <+: runs → (start.after front).Faithful r := by
  intro start hprofiles habsent front hfront
  have hinStep : (start.after front).InStep := by
    refine InStep.after (s := start) hload (fun earlier hearlier => ?_)
      fun hdots earlier r hearlier => ?_
    · exact hprofiles earlier (hearlier.trans hfront)
    · exact habsent hdots earlier r (hearlier.trans hfront)
  exact ⟨hinStep, fun r _ => hinStep.faithful r⟩

/-- A desk with one card, which grants a tenth on dining up to a limit of rewards. -/
def diningDesk (files : FileTree) (path : String) : Desk where
  book := .ofScheme (Sample.single
    [(RuleSpec.flat "dining" (Sample.thousandths 100) ["dining"]).capped .reward "k"
      (Sample.whole 300)])
  mode := .cash
  profile := ⟨files, ⟨path⟩⟩

/-- A purchase of a hundred on the card. -/
def buy : Command := .commit "card" (Sample.whole 100) "dining" none

/-- A new customer buys three times. The first purchase is not stored, the second one is booked but
its receipt is not printed, and for the third one the profile is not read. -/
theorem refines_memory_newCustomer :
    let start : Shadowed := ⟨diningDesk .empty "data/profile.json", ⟨.empty, ⟨.empty⟩⟩⟩
    let runs : List Run :=
      [⟨buy, ⟨true, some (.writing none)⟩, none⟩, ⟨buy, .sound, some "no space left"⟩,
        ⟨buy, ⟨false, none⟩, none⟩]
    let done := start.after runs
    done.desk.profile.load = .ok done.memory.profile ∧
      done.memory.profile.ledger.get (.configured "k") = Sample.whole 10 := by
  intro start runs done
  have hprofiles : ∀ front ∈ runs.inits,
      (start.after front).memory.profile.IsFinite ∧
        (start.after front).memory.profile.ReadsBack := by decide +kernel
  have hrefines := refines_memory (d := start.desk) (p := .empty) (by decide +kernel) runs
    (fun front hfront => hprofiles front ((List.mem_inits _ _).mpr hfront))
    (fun hdots => absurd hdots (by decide +kernel))
  exact ⟨(hrefines _ List.prefix_rfl).1, by decide +kernel⟩

/-- A run that fails can leave more than a temporary file. Where the output does not take the
answer, the purchase is booked, and the profile that is loaded is another one.

Where a directory stands in the place of the temporary file, the purchase is not stored. But now
there is the directory `a`, and the path leads through it to a profile, where a new customer was
loaded before. -/
theorem failed_runs_leave_traces :
    (let start : Shadowed := ⟨diningDesk .empty "data/profile.json", ⟨.empty, ⟨.empty⟩⟩⟩
      let r : Run := ⟨buy, .sound, some "no space left"⟩
      start.InStep ∧ (start.desk.result r).1.isOk = false ∧
        (start.desk.after r).profile.load ≠ .ok .empty) ∧
    (let files : FileTree :=
        .ofFiles [("p.json", .text "\x7b\"ledger\": \x7b\"k\": 300\x7d\x7d"),
          ("p.json.tmp/x", .text "")]
      let start : Shadowed := ⟨diningDesk files "a/../p.json", ⟨.empty, ⟨.empty⟩⟩⟩
      let r : Run := ⟨buy, .good⟩
      start.InStep ∧ (start.desk.result r).1.isOk = false ∧
        (start.run r).memory.profile = .empty ∧ ¬ (start.run r).InStep) := by
  constructor
  · intro start r
    have hload : start.InStep := by decide +kernel
    have hstraight : ".." ∉ start.desk.profile.path.parts := by decide +kernel
    -- the account in memory has followed, so what is loaded is no new customer any more
    have hafter : (start.run r).InStep := hload.run (by decide +kernel) (by decide +kernel)
      (Desk.keepsAbsence_of_not_mem hload hstraight r)
    have hbooked : (start.run r).memory.profile ≠ .empty := by decide +kernel
    refine ⟨hload, by decide +kernel, fun hempty => ?_⟩
    exact hbooked (Except.ok.inj (hafter.symm.trans hempty))
  · intro files start r
    have hmemory : (start.run r).memory.profile = .empty := by decide +kernel
    have hload : (start.run r).desk.profile.load = .ok { Profile.empty with
        ledger := Ledger.empty.add (.configured "k") (Sample.whole 300) } := by decide +kernel
    refine ⟨by decide +kernel, by decide +kernel, hmemory, fun hinStep => ?_⟩
    have hsame := Except.ok.inj (hload.symm.trans hinStep)
    rw [hmemory] at hsame
    exact absurd hsame (by decide)

end Shadowed

end CardRewards.CommandLine
