import ComponentSchema.Files.Tree
import ComponentSchema.Syntax.Source

/-!
# Modules

A program consists of its root files and of every file that they lead to through relative imports.
Files are discovered depth first, and the program order lists a file after the files it imports,
except where imports run in a circle.

Every visit that is under way is of another file of the tree, so visits nest at most as deep as the
tree has entries; `visit` is given that depth.

The definitions model the loader: parsing the roots, resolving import specifiers, and the visit that
orders the files. Their docstrings name the operations of the loader that they mirror.
-/
namespace ComponentSchema

open Syntax

/-- Identity of a loaded file, in the order of discovery. -/
structure ModuleId where
  index : Nat
  deriving DecidableEq, Repr, Inhabited

/-- Why a program could not be loaded. -/
inductive LoadError where
  | read (path : Path) (cause : ReadFailure)
  | parse (path : Path) (cause : SyntaxError)
  | unresolved (specifier : String) (importer : Path)
  deriving DecidableEq, Repr, Inhabited

/-- The message for an error; of a syntax error it gives the place only. -/
def LoadError.message : LoadError → String
  | read path cause => "Failed to read " ++ path.text ++ ": " ++ cause.message
  | parse path _ => "Failed to parse " ++ path.text
  | unresolved specifier importer =>
    "Cannot resolve import '" ++ specifier ++ "' from " ++ importer.text

/-! ## Import paths -/

/-- The endings of source files. -/
def sourceEndings : List String := [".ts", ".tsx", ".mts", ".cts"]

/-- The endings tried for a path without one. -/
def assumedEndings : List String := [".ts", ".tsx", ".d.ts"]

/-- Endings of emitted files, with those of the sources they come from. -/
def emittedEndings : List (String × List String) := [
  (".js", [".ts", ".tsx", ".d.ts"]), (".jsx", [".tsx"]), (".mjs", [".mts", ".d.mts"]),
  (".cjs", [".cts", ".d.cts"])]

/-- The extensions of scripts. A path with another extension names an asset. -/
def scriptExtensions : List String := ["ts", "tsx", "mts", "cts", "js", "jsx", "mjs", "cjs"]

/-- The files that a joined import path may stand for, first choice first. Mirrors `candidates`. -/
def importCandidates (joined : Path) : List Path :=
  (if sourceEndings.any joined.endsWith then [joined] else []) ++
  emittedEndings.flatMap (fun (emitted, sources) =>
    match joined.stripSuffix? emitted with
    | some stem => sources.map fun ending => ⟨stem ++ ending⟩
    | none => []) ++
  assumedEndings.map joined.append ++
  assumedEndings.map fun ending => joined.join ⟨"index" ++ ending⟩

/-- The path that a specifier is looked for at: seen from the directory of the importing file, one
`./` at its start left out. -/
def importTarget (importer : Path) (specifier : String) : Path :=
  let base := importer.parent?.getD ⟨""⟩
  let relative :=
    match specifier.toList with
    | '.' :: '/' :: rest => String.ofList rest
    | _ => specifier
  base.join ⟨relative⟩

/-- The file that a specifier leads to. Specifiers that do not start with a dot lead nowhere, and so
do assets; any other specifier has to lead to a file. Mirrors `resolve_import_path`. -/
def resolveImport (tree : FileTree) (importer : Path) (specifier : String) :
    Except LoadError (Option Path) :=
  if specifier.toList.head? != some '.' then .ok none
  else
    let target := importTarget importer specifier
    match (importCandidates target).find? tree.isFile with
    | some found => .ok (some found)
    | none =>
      match target.extension? with
      | some extension =>
        if scriptExtensions.contains extension then .error (.unresolved specifier importer)
        else .ok none
      | none => .error (.unresolved specifier importer)

/-! ## Loaded files -/

/-- The specifier of an item that refers to another module. -/
def Syntax.ItemKind.source? : ItemKind → Option StringLiteral
  | .imports source _ => some source
  | .exportNamed source _ => source
  | .exportAll source => some source
  | _ => none

/-- The specifiers of a file, in order; a text with a lone surrogate is none. Mirrors
`module_specifiers`. -/
def Syntax.SourceTree.specifiers (tree : SourceTree) : List String :=
  tree.items.filterMap fun item => item.kind.source?.bind (·.exact)

/-- A loaded file. Mirrors `LoadedFile`. -/
structure ModuleFile where
  /-- The path as given, or as joined from the importing file. -/
  path : Path
  tree : SourceTree
  /-- The modules that its specifiers lead to. -/
  dependencies : List (String × ModuleId)

namespace ModuleFile

/-- The module that a specifier leads to. -/
def dependency? (file : ModuleFile) (source : StringLiteral) : Option ModuleId :=
  source.exact.bind fun specifier => file.dependencies.lookup specifier

end ModuleFile

/-- Reads and parses a file. Mirrors `parse_file`. -/
def parseFile (tree : FileTree) (path : Path) : Except LoadError SourceTree :=
  match tree.read path with
  | .error cause => .error (.read path cause)
  | .ok text =>
    match SourceTree.parse (Variant.ofPath path.text) text with
    | .error cause => .error (.parse path cause)
    | .ok parsed => .ok parsed

/-- The files of a program. Mirrors `LoadedFiles`. -/
structure Modules where
  /-- Every file, by its id. -/
  files : Array ModuleFile
  /-- Program order. -/
  order : List ModuleId

/-- A program while its files are being discovered. Mirrors `Loader`. -/
structure Discovery where
  files : Array ModuleFile
  /-- The files found so far, by location. -/
  known : List (Location × ModuleId)
  /-- The files whose visit has begun. -/
  visited : List ModuleId
  /-- The files whose visit has ended, last first. -/
  finished : List ModuleId

namespace Discovery

/-- Nothing found yet. -/
def start : Discovery := ⟨#[], [], [], []⟩

/-- The module at the location that a path leads to. -/
def known? (discovery : Discovery) (tree : FileTree) (path : Path) : Option ModuleId :=
  match tree.locate path with
  | .ok location => discovery.known.lookup location
  | .error _ => none

/-- Adds a parsed file. Mirrors `register`. -/
def register (discovery : Discovery) (tree : FileTree) (path : Path) (parsed : SourceTree) :
    ModuleId × Discovery :=
  let id : ModuleId := ⟨discovery.files.size⟩
  let known :=
    match tree.locate path with
    | .ok location => (location, id) :: discovery.known
    | .error _ => discovery.known
  (id, { discovery with files := discovery.files.push ⟨path, parsed, []⟩, known })

/-- The module at a path, which is read if it is new. Mirrors `get_or_load`. -/
def require (discovery : Discovery) (tree : FileTree) (path : Path) :
    Except LoadError (ModuleId × Discovery) :=
  match discovery.known? tree path with
  | some id => .ok (id, discovery)
  | none => (parseFile tree path).map (discovery.register tree path)

/-- Records where a specifier of a module leads. -/
def addDependency (discovery : Discovery) (id : ModuleId) (specifier : String)
    (dependency : ModuleId) : Discovery :=
  { discovery with
    files := discovery.files.modify id.index fun file =>
      { file with dependencies := (specifier, dependency) :: file.dependencies } }

/-- Follows one specifier of a module; `visit` visits the file it leads to. Mirrors the loop body of
`visit`. -/
def follow (tree : FileTree) (visit : ModuleId → Discovery → Except LoadError Discovery)
    (id : ModuleId) (path : Path) (discovery : Discovery) (specifier : String) :
    Except LoadError Discovery := do
  match ← resolveImport tree path specifier with
  | none => pure discovery
  | some found =>
    let (dependency, discovery) ← discovery.require tree found
    visit dependency (discovery.addDependency id specifier dependency)

/-- Visits a module and, before it ends, every module it imports that was not visited before.
Mirrors `visit`. -/
def visit (tree : FileTree) : Nat → ModuleId → Discovery → Except LoadError Discovery
  | 0, _, discovery => .ok discovery
  | depth + 1, id, discovery => do
    if id ∈ discovery.visited then pure discovery
    else
      match discovery.files[id.index]? with
      | none => pure discovery
      | some file =>
        let begun := { discovery with visited := id :: discovery.visited }
        let ended ← file.tree.specifiers.foldlM (follow tree (visit tree depth) id file.path) begun
        pure { ended with finished := id :: ended.finished }

end Discovery

/-- Adds the roots that are not the same file as a root before them. The answer lists their ids.
Mirrors the root loop of `load_files`. -/
def Discovery.addRoots (tree : FileTree) :
    List (Path × SourceTree) → Discovery → List ModuleId × Discovery
  | [], discovery => ([], discovery)
  | (path, parsed) :: rest, discovery =>
    match discovery.known? tree path with
    | some _ => addRoots tree rest discovery
    | none =>
      let (id, discovery) := discovery.register tree path parsed
      let (ids, discovery) := addRoots tree rest discovery
      (id :: ids, discovery)

/-- Loads the roots and everything they import. Every root is parsed before any import is
followed. Mirrors `load_files`. -/
def Modules.load (tree : FileTree) (roots : List Path) : Except LoadError Modules := do
  let parsed ← roots.mapM fun root => (parseFile tree root).map (root, ·)
  let (ids, discovery) := Discovery.addRoots tree parsed Discovery.start
  let depth := tree.entries.length + 1
  let ended ← ids.foldlM (fun discovery id => discovery.visit tree depth id) discovery
  pure ⟨ended.files, ended.finished.reverse⟩

end ComponentSchema
