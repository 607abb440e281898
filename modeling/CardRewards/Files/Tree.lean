import CardRewards.Data.Dict
import CardRewards.Files.Path

/-!
# Files

The files that the program works on, as a value: directories and files by place. A place is a list
of names, counted from the working directory, or from the root if the first name is a slash; two dots
in front of the names lead up from the working directory. Operations on paths fail where a file
stands in the way of a directory or a directory in the way of a file, and then change nothing.

A file holds a text or bytes that are no text. Only texts can be read.
-/

namespace CardRewards

/-- What a file holds. -/
inductive FileContent where
  | text (s : String)
  | bytes (bytes : List UInt8)
deriving DecidableEq

/-- What a file of some bytes holds: their text, if they encode one. -/
def FileContent.ofBytes (bytes : List UInt8) : FileContent :=
  match String.fromUTF8? ⟨bytes.toArray⟩ with
  | some s => text s
  | none => FileContent.bytes bytes

/-- What stands at a place. -/
inductive FileEntry where
  | directory
  | file (content : FileContent)
deriving DecidableEq

/-- Where something stands: names from the working directory or from the root. -/
abbrev Place := List String

/-- Directories and files, by the texts of their places. -/
structure FileTree where
  entries : Dict FileEntry
deriving DecidableEq

namespace FileTree

/-- The working directory with nothing in it. -/
def empty : FileTree := ⟨.empty⟩

instance : Inhabited FileTree := ⟨empty⟩

/-- The text of a place. -/
def placeText : Place → String
  | "/" :: names => "/" ++ "/".intercalate names
  | names => "/".intercalate names

/-- Where places of a path are counted from. -/
def origin (p : Path) : Place := if p.isAbsolute then ["/"] else []

/-- Whether a place is one that others are counted from: the root, the working directory or one above
it. -/
def isOrigin (place : Place) : Bool := place = ["/"] || place.all (· = "..")

/-- What stands at a place. -/
def entry? (t : FileTree) (place : Place) : Option FileEntry :=
  if isOrigin place then some .directory else t.entries.get? (placeText place)

/-- Whether a directory stands at a place. -/
def isDirectory (t : FileTree) (place : Place) : Bool := t.entry? place = some .directory

/-- The place that a part of a path leads to from another. -/
def follow? (t : FileTree) (place : Place) (part : String) : Option Place :=
  if part ≠ ".." then some (place ++ [part])
  else if place = ["/"] then some place
  else if place.all (· = "..") then some (place ++ [".."])
  else if t.isDirectory place then some place.dropLast
  else none

/-- The place of a path. The empty path has none, nor has one that leads up from where there is no
directory. -/
def place? (t : FileTree) (p : Path) : Option Place :=
  if p.text = "" then none else p.parts.foldlM t.follow? (origin p)

/-- What stands at a path. -/
def find? (t : FileTree) (p : Path) : Option FileEntry :=
  match (t.place? p).bind t.entry? with
  | some (.file content) => if p.namesDirectory then none else some (.file content)
  | found => found

/-- Whether anything stands at a path. -/
def holds (t : FileTree) (p : Path) : Bool := (t.find? p).isSome

/-- The text of the file at a path. -/
def text? (t : FileTree) (p : Path) : Option String :=
  match t.find? p with
  | some (.file (.text s)) => some s
  | _ => none

/-- The paths of all files in the working directory, sorted. -/
def files (t : FileTree) : List String :=
  t.entries.toList.filterMap fun (place, entry) =>
    match entry with
    | .directory => none
    | .file _ =>
      let p := Path.mk place
      if p.isAbsolute || p.parts.head? = some ".." then none else some place

/-- Create the directories that parts of a path lead through from a place, so far as they are missing.
What stops half-way answers with what it has come to. -/
def createFrom (t : FileTree) (place : Place) : (parts : List String) → Except FileTree FileTree
  | [] => .ok t
  | part :: rest =>
    match t.follow? place part with
    | none => .error t
    | some next =>
      match t.entry? next with
      | some (.file _) => .error t
      | some .directory => t.createFrom next rest
      | none => createFrom ⟨t.entries.insert (placeText next) .directory⟩ next rest

/-- Create the directories that lead to a path. -/
def createParents (t : FileTree) (p : Path) : Except FileTree FileTree :=
  t.createFrom (origin p) p.parts.dropLast

/-- Write a file into a directory that is there. -/
def write? (t : FileTree) (place : Place) (content : FileContent) : Option FileTree :=
  if isOrigin place || t.isDirectory place || !t.isDirectory place.dropLast then none
  else some ⟨t.entries.insert (placeText place) (.file content)⟩

/-- The files without what stands at a place. -/
def remove (t : FileTree) (place : Place) : FileTree :=
  ⟨.ofList (t.entries.toList.filter (·.1 ≠ placeText place))⟩

/-- Move a file to a path, in place of the file there. -/
def move? (t : FileTree) (source : Place) (target : Path) : Option FileTree :=
  match t.entry? source, t.place? target with
  | some (.file content), some place =>
    if target.namesDirectory then none else (t.remove source).write? place content
  | _, _ => none

/-- Put a file at a path, with the directories that lead there. Where that is impossible nothing
changes. -/
def put (t : FileTree) (p : Path) (content : FileContent) : FileTree :=
  match t.createParents p with
  | .ok made => ((made.place? p).bind fun place => made.write? place content).getD t
  | .error _ => t

/-- The files of a listing. -/
def ofFiles (files : List (String × FileContent)) : FileTree :=
  files.foldl (fun t file => t.put ⟨file.1⟩ file.2) empty

end FileTree

end CardRewards
