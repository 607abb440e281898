/-!
# Paths

A path is a text whose parts stand between slashes. Empty parts and single dots say nothing; two
dots lead up; a slash in front makes the path absolute, and one behind insists on a directory. A path
is kept with its parts and with its text, because messages show it as it was written.
-/

namespace CardRewards

/-- A path as it was written. -/
structure Path where
  text : String
deriving DecidableEq, Inhabited

namespace Path

/-- Split characters at slashes. -/
def splitSlashes : List Char → List (List Char)
  | [] => [[]]
  | '/' :: rest => [] :: splitSlashes rest
  | c :: rest =>
    match splitSlashes rest with
    | first :: others => (c :: first) :: others
    | [] => [[c]]

/-- Whether a path starts at the root. -/
def isAbsolute (p : Path) : Bool := p.text.toList.head? = some '/'

/-- The parts of a path that say something. -/
def parts (p : Path) : List String :=
  ((splitSlashes p.text.toList).map String.ofList).filter fun part => part ≠ "" && part ≠ "."

/-- Whether the end of a path insists on a directory. -/
def namesDirectory (p : Path) : Bool :=
  match (splitSlashes p.text.toList).getLast? with
  | some last => last = [] || last = ['.'] || last = ['.', '.']
  | none => false

/-- The last part, if it is a name. -/
def fileName? (p : Path) : Option String := p.parts.getLast?.filter (· ≠ "..")

/-- What follows the last dot of a name, if anything stands in front of that dot. -/
def extensionOf? (name : String) : Option String :=
  let behind := name.toList.reverse.takeWhile (· ≠ '.')
  let front := (name.toList.reverse.dropWhile (· ≠ '.')).drop 1
  if front.isEmpty then none else some (String.ofList behind.reverse)

/-- The extension of a path. -/
def extension? (p : Path) : Option String := p.fileName?.bind extensionOf?

/-- A path inside a directory; one that is absolute stands for itself. -/
def inside (directory : String) (p : Path) : Path :=
  if directory = "" || p.isAbsolute then p
  else if directory.toList.getLast? = some '/' then ⟨directory ++ p.text⟩
  else ⟨directory ++ "/" ++ p.text⟩

end Path

end CardRewards
