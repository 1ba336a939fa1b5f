import ComponentSchema.Text.Classes

/-!
# Paths

A path is its text; what it means are its components. Two texts with the same components are the
same path, and paths are ordered by their components. Repeated separators and `.` after the first
place add no component.
-/
namespace ComponentSchema

structure Path where
  text : String
  deriving DecidableEq, Repr, Inhabited

namespace Path

inductive Component where
  | root
  | current
  | parent
  | normal (name : String)
  deriving DecidableEq, Repr, Inhabited

/-- The order of components: the root first, then `.` and `..`, then names. -/
def Component.lt : Component → Component → Bool
  | root, root => false
  | root, _ => true
  | current, root | current, current => false
  | current, _ => true
  | parent, normal _ => true
  | parent, _ => false
  | normal a, normal b => a < b
  | normal _, _ => false

/-- Whether the path starts at the root. -/
def isAbsolute (path : Path) : Bool := path.text.toList.head? == some '/'

/-- The pieces of a path after its root. -/
def pieces (path : Path) : List (List Char) :=
  Text.splitOn '/' (if path.isAbsolute then path.text.toList.drop 1 else path.text.toList)

/-- The component that a piece stands for after the first place. -/
def laterComponent? (piece : List Char) : Option Component :=
  if piece == [] || piece == ['.'] then none
  else if piece == ['.', '.'] then some .parent
  else some (.normal (String.ofList piece))

/-- The components of a path. -/
def components (path : Path) : List Component :=
  if path.isAbsolute then .root :: path.pieces.filterMap laterComponent?
  else
    match path.pieces with
    | ['.'] :: rest => .current :: rest.filterMap laterComponent?
    | pieces => pieces.filterMap laterComponent?

/-- Whether two texts are the same path. -/
def same (a b : Path) : Bool := a.components == b.components

/-- Whether the components of `start` come first in `path`. -/
def startsWith (path start : Path) : Bool := start.components.isPrefixOf path.components

/-- Lexicographic order by components. -/
def componentsLt : List Component → List Component → Bool
  | [], [] => false
  | [], _ :: _ => true
  | _ :: _, [] => false
  | a :: as, b :: bs => if a == b then componentsLt as bs else a.lt b

/-- The order of paths. -/
def lt (a b : Path) : Bool := componentsLt a.components b.components

/-- `right` seen from the directory `left`; an absolute path is the same from everywhere. -/
def join (left right : Path) : Path :=
  if right.isAbsolute || left.text.isEmpty then right
  else if left.text.toList.getLast? == some '/' then ⟨left.text ++ right.text⟩
  else ⟨left.text ++ "/" ++ right.text⟩

/-- The pieces without those at the end that are no component. -/
def trimPieces (absolute : Bool) (pieces : List (List Char)) : List (List Char) :=
  let isIdle (piece : List Char) : Bool := piece == [] || piece == ['.']
  match pieces with
  | [] => []
  | first :: rest =>
    let kept := (rest.reverse.dropWhile isIdle).reverse
    if kept.isEmpty && (first == [] || (absolute && isIdle first)) then [] else first :: kept

/-- The path without its last component, if it has one other than the root. -/
def parent? (path : Path) : Option Path :=
  let pieces := trimPieces path.isAbsolute path.pieces
  if pieces.isEmpty then none
  else
    let kept := trimPieces path.isAbsolute pieces.dropLast
    let text := "/".intercalate (kept.map String.ofList)
    some ⟨if path.isAbsolute then "/" ++ text else text⟩

/-- The name that the path ends with, if it ends with a name. -/
def fileName? (path : Path) : Option String :=
  match path.components.getLast? with
  | some (.normal name) => some name
  | _ => none

/-- The part of a file name after its last dot; a dot in the first place starts no extension. -/
def extensionOf? (name : List Char) : Option (List Char) :=
  let after := (name.reverse.takeWhile (· != '.')).reverse
  if after.length + 1 < name.length then some after else none

/-- The extension of the path's file name. -/
def extension? (path : Path) : Option String :=
  (path.fileName?.bind fun name => extensionOf? name.toList).map String.ofList

/-- Whether the text of the path ends with `suffix`. -/
def endsWith (path : Path) (suffix : String) : Bool :=
  suffix.toList.isSuffixOf path.text.toList

/-- The path without `suffix` at the end of its text. -/
def stripSuffix? (path : Path) (suffix : String) : Option String :=
  if path.endsWith suffix then
    some (String.ofList (path.text.toList.take (path.text.length - suffix.length)))
  else none

/-- The path with more text after it. -/
def append (path : Path) (suffix : String) : Path := ⟨path.text ++ suffix⟩

end Path

end ComponentSchema
