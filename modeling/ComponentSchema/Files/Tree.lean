import ComponentSchema.Files.Path

/-!
# File trees

A file system without links, as a list of what stands where. A location is the list of names that
lead to an entry from the root; a path leads to a location from the working directory, or to
nothing.
-/
namespace ComponentSchema

/-- The names that lead from the root to an entry. -/
abbrev Location := List String

inductive Entry where
  | directory
  /-- A file with its text; there is none if its bytes are not UTF-8. -/
  | file (text : Option String)
  deriving DecidableEq, Repr, Inhabited

structure FileTree where
  /-- Every entry but the root. -/
  entries : List (Location × Entry)
  /-- The working directory. -/
  current : Location
  deriving Repr, Inhabited

/-- Why a file could not be read. -/
inductive ReadFailure where
  | missing
  | notDirectory
  | isDirectory
  | notText
  deriving DecidableEq, Repr, Inhabited

/-- The words for a failure. -/
def ReadFailure.message : ReadFailure → String
  | missing => "No such file or directory (os error 2)"
  | notDirectory => "Not a directory (os error 20)"
  | isDirectory => "Is a directory (os error 21)"
  | notText => "stream did not contain valid UTF-8"

namespace FileTree

/-- What stands at a location. The root is a directory. -/
def entry? (tree : FileTree) : Location → Option Entry
  | [] => some .directory
  | location => tree.entries.lookup location

/-- Where a piece of a path leads from a location: only a directory leads anywhere. -/
def step (tree : FileTree) (location : Location) (piece : List Char) : Except ReadFailure Location :=
  match tree.entry? location with
  | none => .error .missing
  | some (.file _) => .error .notDirectory
  | some .directory =>
    if piece == [] || piece == ['.'] then .ok location
    else if piece == ['.', '.'] then .ok location.dropLast
    else
      let next := location ++ [String.ofList piece]
      if (tree.entry? next).isSome then .ok next else .error .missing

/-- Where a path leads. -/
def locate (tree : FileTree) (path : Path) : Except ReadFailure Location :=
  if path.text.isEmpty then .error .missing
  else path.pieces.foldlM tree.step (if path.isAbsolute then [] else tree.current)

/-- What stands where a path leads. -/
def find? (tree : FileTree) (path : Path) : Option Entry :=
  match tree.locate path with
  | .ok location => tree.entry? location
  | .error _ => none

/-- Whether the path leads anywhere. -/
def exists? (tree : FileTree) (path : Path) : Bool := (tree.find? path).isSome

/-- Whether the path leads to a directory. -/
def isDirectory (tree : FileTree) (path : Path) : Bool := tree.find? path == some .directory

/-- Whether the path leads to a file. -/
def isFile (tree : FileTree) (path : Path) : Bool :=
  match tree.find? path with
  | some (.file _) => true
  | _ => false

/-- The text of the file that a path leads to. -/
def read (tree : FileTree) (path : Path) : Except ReadFailure String := do
  let location ← tree.locate path
  match tree.entry? location with
  | some (.file (some text)) => .ok text
  | some (.file none) => .error .notText
  | some .directory => .error .isDirectory
  | none => .error .missing

/-- The files below a directory, by the names that lead to them from it. -/
def filesBelow (tree : FileTree) (directory : Location) : List (List String) :=
  tree.entries.filterMap fun (location, entry) =>
    match entry with
    | .directory => none
    | .file _ =>
      if directory.isPrefixOf location then some (location.drop directory.length) else none

end FileTree

end ComponentSchema
