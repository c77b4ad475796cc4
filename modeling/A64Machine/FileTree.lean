/-!
# Files in a directory

The files below a directory and the reading of one by its path. A path is walked name by name: a
name leads on only from a directory, a single dot stays, and two dots lead back, which may leave
the directory. Nothing is known outside of it, except that its parents are directories.
-/

namespace A64Machine

/-- A directory: the path it is known under, and the contents of the files below it by the names
that lead to them. -/
structure FileTree where
  place : String
  files : List (List String × ByteArray)

/-- Why a file cannot be read. -/
inductive FileError where
  | missing
  | notDirectory
  | isDirectory
  | nameTooLong
  | nullCharacter
  deriving DecidableEq, Repr

/-- The text about a file that cannot be read. -/
def FileError.message : FileError → String
  | .missing => "no such file"
  | .notDirectory => "not a directory"
  | .isDirectory => "is a directory"
  | .nameTooLong => "name too long"
  | .nullCharacter => "embedded null byte"

namespace FileTree

/-- Where a path leads: to a directory below the one of the tree, to one of its parents, or to a
file. -/
inductive Spot where
  | directory (names : List String)
  | outside
  | file (content : ByteArray)

/-- The names of a path. Two solidi in a row and one at the end make an empty name. -/
def namesOf (path : String) : List String := path.splitOn "/"

/-- The most bytes of a name. -/
def mostNameBytes : Nat := 255

/-- The most bytes of a path. -/
def mostPathBytes : Nat := 4095

/-- A directory with the files at some paths below it. Of equal paths the first counts. -/
def ofFiles (place : String) (files : List (String × ByteArray)) : FileTree :=
  ⟨place, files.map fun (path, content) =>
    ((namesOf path).filter fun name => name != "" && name != ".", content)⟩

/-- What the names lead to below the directory. -/
def spot? (tree : FileTree) (names : List String) : Option Spot :=
  match tree.files.lookup names with
  | some content => some (.file content)
  | none =>
    if tree.files.any fun (known, _) => names.isPrefixOf known then some (.directory names)
    else none

/-- Where a name leads from a spot. -/
def step (tree : FileTree) (spot : Spot) (name : String) : Except FileError Spot :=
  match spot with
  | .file _ => .error .notDirectory
  | .outside =>
    if name = "" ∨ name = "." ∨ name = ".." then .ok .outside
    else if mostNameBytes < name.utf8ByteSize then .error .nameTooLong
    else .error .missing
  | .directory names =>
    if name = "" ∨ name = "." then .ok spot
    else if name = ".." then
      .ok (if names.isEmpty then .outside else .directory names.dropLast)
    else if mostNameBytes < name.utf8ByteSize then .error .nameTooLong
    else
      match tree.spot? (names ++ [name]) with
      | some spot => .ok spot
      | none => .error .missing

/-- Where a path leads. A path that does not begin with that of the directory begins outside. -/
def walk (tree : FileTree) (path : String) : Except FileError Spot :=
  let names := namesOf path
  let place := namesOf tree.place
  if place.isPrefixOf names then (names.drop place.length).foldlM tree.step (.directory [])
  else names.foldlM tree.step .outside

/-- The content of the file at a path. -/
def read (tree : FileTree) (path : String) : Except FileError ByteArray := do
  if path.toList.contains '\x00' then throw .nullCharacter
  if mostPathBytes < path.utf8ByteSize then throw .nameTooLong
  match ← tree.walk path with
  | .file content => return content
  | .directory _ | .outside => throw .isDirectory

end FileTree

end A64Machine
