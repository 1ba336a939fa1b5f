import ComponentSchema.Files.Tree
import ComponentSchema.Glob

/-!
# Source files below paths

Which files a list of paths stands for. A path that leads to a directory stands for the TypeScript
files below it, less those that are to be ignored; any other path stands for itself, whether or not
it leads anywhere.

The definitions model the path scanner, and their docstrings name the operations of it that they
mirror.
-/
namespace ComponentSchema

/-- What is left out below a directory. -/
inductive Ignore where
  /-- Everything at or below a path. -/
  | below (path : Path)
  /-- Every path whose text matches. -/
  | matching (pattern : Glob)
  deriving DecidableEq, Repr, Inhabited

namespace Ignore

/-- Whether an ignored path is written with wildcards. Mirrors `is_glob_pattern`. -/
def hasWildcard (text : String) : Bool :=
  text.toList.any fun c => c == '*' || c == '?'

/-- What a text asks to leave out, seen from a base directory. A text with wildcards that is no
pattern leaves nothing out. -/
def ofText? (base : Path) (text : String) : Option Ignore :=
  if hasWildcard text then
    match Glob.ofText text with
    | .ok pattern => some (.matching pattern)
    | .error _ => none
  else some (.below (base.join ⟨text⟩))

/-- The patterns of test files. -/
def testPatterns : List String :=
  ["**/*.test.tsx", "**/*.test.ts", "**/*.spec.tsx", "**/*.spec.ts", "**/__tests__/**"]

/-- Whether a path is left out. -/
def covers (path : Path) : Ignore → Bool
  | below ignored => path.startsWith ignored
  | matching pattern => pattern.accepts path.text.toList

end Ignore

/-- What a scan leaves out: what is asked for, and test files if `tests` is set. -/
def ignoresOf (base : Path) (ignores : List String) (tests : Bool) : List Ignore :=
  (ignores ++ if tests then Ignore.testPatterns else []).filterMap (Ignore.ofText? base)

/-- The extensions of the files that are found below a directory. -/
def scannedExtensions : List String := ["tsx", "ts"]

/-- Whether a file is found below a directory. Mirrors `is_scannable_file` with the ignore check of
`scan_paths`. -/
def isScanned (ignores : List Ignore) (path : Path) : Bool :=
  path.extension?.any scannedExtensions.contains && !ignores.any (·.covers path)

/-- The paths of the files below a directory, spelled as a walk from there spells them. -/
def FileTree.walk (tree : FileTree) (directory : Path) : List Path :=
  match tree.locate directory with
  | .error _ => []
  | .ok location => (tree.filesBelow location).map fun names =>
    names.foldl (fun path name => path.join ⟨name⟩) directory

/-- Puts a path into an increasing list of paths, unless the same path is there. -/
def insertPath (path : Path) : List Path → List Path
  | [] => [path]
  | first :: rest =>
    if path.lt first then path :: first :: rest
    else if first.lt path then first :: insertPath path rest
    else first :: rest

/-- The inputs that are no directories, the first spelling of each. -/
def FileTree.explicitFiles (tree : FileTree) (inputs : List Path) : List Path :=
  inputs.foldl
    (fun files input =>
      if tree.isDirectory input || files.any (·.same input) then files else files ++ [input])
    []

/-- The files found below those inputs that are directories, in path order. -/
def FileTree.discoveredFiles (tree : FileTree) (ignores : List Ignore) (inputs : List Path) :
    List Path :=
  (inputs.filter tree.isDirectory).foldl
    (fun found input => ((tree.walk input).filter (isScanned ignores)).foldl
      (fun found path => insertPath path found) found)
    []

/-- The source files that a list of paths stands for, seen from a base directory: explicit files
first, in the order given, then what is found below directories. Mirrors `scan_paths`. -/
def FileTree.scan (tree : FileTree) (base : Path) (inputs : List Path) (ignores : List String)
    (ignoreTests : Bool) : List Path :=
  let inputs := inputs.map base.join
  let explicit := tree.explicitFiles inputs
  let found := tree.discoveredFiles (ignoresOf base ignores ignoreTests) inputs
  explicit ++ found.filter fun path => !explicit.any (·.same path)

end ComponentSchema
