import CardRewards.Account
import CardRewards.Document.Json.Printer
import CardRewards.Document.Json.Reader
import CardRewards.Encoding.Profile
import CardRewards.Files.Tree

/-!
# Profile files

A profile is stored in a file. Where there is none the customer is new. A profile is written to a
temporary file beside it first, which then takes its place, so that no file is ever half written.
What fails half-way may leave directories or the temporary file behind.

In the requirements (§2, component 9) this is the store on a JSON file, `JsonFileProfileStore`
with its `load` and `save`. The temporary file is its `temp_path`.
-/

namespace CardRewards

/-- The files, and the path of the profile among them. -/
structure ProfileFile where
  files : FileTree
  path : Path
deriving DecidableEq

namespace ProfileFile

/-- The profile of a text. -/
def profileOf (text : String) : Except (Fault Binary64) (Profile Binary64) :=
  match (Json.read? text).bind Profile.ofNode? with
  | some profile => .ok profile
  | none => .error .malformedJson

/-- The stored profile. -/
def load (f : ProfileFile) : Except (Fault Binary64) (Profile Binary64) :=
  if f.files.holds f.path then
    match f.files.text? f.path with
    | some text => profileOf text
    | none => .error .unreadable
  else .ok .empty

/-- The name of the temporary file. -/
def temporaryName (f : ProfileFile) : String := f.path.fileName?.getD "profile.json" ++ ".tmp"

/-- The directory of the temporary file. -/
def temporaryPlace? (f : ProfileFile) (files : FileTree) : Option Place :=
  let parts := if f.path.fileName?.isSome then f.path.parts.dropLast else f.path.parts
  (parts.foldlM files.follow? (FileTree.origin f.path)).map fun place =>
    place ++ [f.temporaryName]

/-- What a disk may fail at while a profile is being stored, though nothing stands in the way. -/
inductive Trouble where
  /-- Directories are created for so many parts of the path only. -/
  | creating (parts : Nat)
  /-- The temporary file is not written, or not as it should be. -/
  | writing (left : Option FileContent)
  /-- The temporary file cannot take the place of the other. -/
  | moving
deriving DecidableEq

/-! Each step of storing answers with the files that it comes to; one that fails, with those that it
leaves behind. -/

/-- Create the directories that the profile is stored in. -/
def createOn (f : ProfileFile) : Option Trouble → Except FileTree FileTree
  | some (.creating parts) =>
    match f.files.createFrom (FileTree.origin f.path) (f.path.parts.dropLast.take parts) with
    | .ok made => .error made
    | .error made => .error made
  | _ => f.files.createParents f.path

/-- Write the temporary file. -/
def writeOn (made : FileTree) (temporary : Place) (text : String) :
    Option Trouble → Except FileTree FileTree
  | some (.writing none) => .error made
  | some (.writing (some left)) => .error ((made.write? temporary left).getD made)
  | _ =>
    match made.write? temporary (.text text) with
    | some written => .ok written
    | none => .error made

/-- Put the temporary file in the place of the profile. -/
def moveOn (f : ProfileFile) (written : FileTree) (temporary : Place) :
    Option Trouble → Except FileTree FileTree
  | some .moving => .error written
  | _ =>
    match written.move? temporary f.path with
    | some moved => .ok moved
    | none => .error written

/-- Store a text. -/
def storeOn (f : ProfileFile) (text : String) (trouble : Option Trouble) :
    Except FileTree FileTree := do
  let made ← f.createOn trouble
  match f.temporaryPlace? made with
  | none => .error made
  | some temporary =>
    let written ← writeOn made temporary text trouble
    f.moveOn written temporary trouble

/-- Store a profile on a disk that may fail. -/
def saveOn (f : ProfileFile) (profile : Profile Binary64) (trouble : Option Trouble) :
    Except (Fault Binary64) Unit × ProfileFile :=
  match f.storeOn (Json.write profile.toNode) trouble with
  | .ok files => (.ok (), { f with files })
  | .error files => (.error (.notStored (.blocked f.path.text)), { f with files })

/-- Store a profile. -/
def save (f : ProfileFile) (profile : Profile Binary64) :
    Except (Fault Binary64) Unit × ProfileFile :=
  f.saveOn profile none

instance : ProfileStore ProfileFile Binary64 where
  load := load
  save := save

/-- What a disk is like while a profile file is used. -/
structure Disk where
  /-- Whether a file that is there can be read. -/
  readable : Bool
  /-- What storing fails at. -/
  trouble : Option Trouble
deriving DecidableEq

/-- A disk that fails at nothing. -/
def Disk.sound : Disk := ⟨true, none⟩

/-- A profile file on a disk that may fail. -/
structure OnDisk where
  file : ProfileFile
  disk : Disk
deriving DecidableEq

namespace OnDisk

/-- The stored profile, if the disk lets it be read. Where there is none nothing is read. -/
def load (d : OnDisk) : Except (Fault Binary64) (Profile Binary64) :=
  if d.file.files.holds d.file.path && !d.disk.readable then .error .unreadable else d.file.load

/-- Store a profile. -/
def save (d : OnDisk) (profile : Profile Binary64) : Except (Fault Binary64) Unit × OnDisk :=
  let (result, file) := d.file.saveOn profile d.disk.trouble
  (result, { d with file })

instance : ProfileStore OnDisk Binary64 where
  load := load
  save := save

end OnDisk

end ProfileFile

end CardRewards
