import ComponentSchema.Files.Tree
import ComponentSchema.Glob
import ComponentSchema.Options.Json
import ComponentSchema.Text.Printable

/-!
# Configuration

A project may hold a configuration file. It is looked for in a directory and in those above it, up
to one that holds a repository.

The definitions model the configuration of a run, and their docstrings name the operations that they
mirror.
-/
namespace ComponentSchema

open Json

/-- What a configuration file says. Mirrors `Config`. -/
structure Config where
  target : ScriptTarget
  module : ModuleKind
  dedupeSchemas : Bool
  /-- Paths and patterns that a scan leaves out. -/
  ignores : List String
  ignoreTestFiles : Bool
  deriving DecidableEq, Repr

/-- Why a configuration could not be loaded. -/
inductive ConfigError where
  | read (path : Path) (cause : ReadFailure)
  | parse (path : Path) (cause : Fault)
  | pattern (text : String) (cause : GlobError)
  deriving DecidableEq, Repr, Inhabited

/-- The message for an error; of a text that is no configuration it gives the place only. -/
def ConfigError.message : ConfigError → String
  | read path cause =>
    "Failed to read config file: " ++ Text.inQuotes path.text ++ ": " ++ cause.message
  | parse path _ => "Failed to parse config file: " ++ Text.inQuotes path.text
  | pattern text cause =>
    "Invalid glob pattern in 'ignores': \"" ++ text ++ "\": " ++ cause.message

namespace Config

/-- What is assumed where nothing is said. -/
def standard : Config := ⟨.es5, .commonJs, false, [], true⟩

/-- The compiler options of a configuration. Mirrors `compiler_options`. -/
def options (config : Config) : CompilerOptions := ⟨config.target, config.module⟩

/-- The schema mode of a configuration. Mirrors `schema_mode`. -/
def mode (config : Config) : SchemaMode := if config.dedupeSchemas then .dedupe else .repeated

/-- A configuration as JSON. -/
def toJson (config : Config) : Json :=
  .object [
    ("target", config.target.toJson),
    ("module", config.module.toJson),
    ("dedupeSchemas", .bool config.dedupeSchemas),
    ("ignores", .ofList .string config.ignores),
    ("ignoreTestFiles", .bool config.ignoreTestFiles)]

/-- The fields of a configuration. -/
def fields : List (RecordField Config) := [
  .standard "target" ScriptTarget.reader standard.target fun target c => { c with target },
  .standard "module" ModuleKind.reader standard.module fun module c => { c with module },
  .standard "dedupeSchemas" Reader.flag standard.dedupeSchemas fun dedupeSchemas c =>
    { c with dedupeSchemas },
  .standard "ignores" Reader.text.list standard.ignores fun ignores c => { c with ignores },
  .standard "ignoreTestFiles" Reader.flag standard.ignoreTestFiles fun ignoreTestFiles c =>
    { c with ignoreTestFiles }]

/-- Reads a configuration. -/
def reader : Reader Config := Reader.record fields standard

/-! ## Files -/

/-- The name of configuration files. -/
def fileName : String := ".propscanrc.json"

/-- What marks the directory of a repository. -/
def repositoryName : String := ".git"

/-- Looks for a configuration file in a directory and in at most `bound` directories above it. -/
def findWithin (tree : FileTree) : (bound : Nat) → Path → Option Path
  | bound, directory =>
    let candidate := directory.join ⟨fileName⟩
    if tree.exists? candidate then some candidate
    else if tree.exists? (directory.join ⟨repositoryName⟩) then none
    else
      match bound, directory.parent? with
      | bound + 1, some above => findWithin tree bound above
      | _, _ => none

/-- The configuration file that applies in a directory. A path is no deeper than its text is
long. Mirrors `find_config_file`. -/
def find? (tree : FileTree) (directory : Path) : Option Path :=
  findWithin tree directory.text.length directory

/-- Checks the patterns of a configuration, which include those without wildcards. Mirrors
`validate`. -/
def checkIgnores (config : Config) : Except ConfigError Unit :=
  config.ignores.forM fun text =>
    match Glob.ofText text with
    | .ok _ => .ok ()
    | .error cause => .error (.pattern text cause)

/-- The configuration that a file holds. -/
def read (tree : FileTree) (path : Path) : Except ConfigError Config := do
  match tree.read path with
  | .error cause => .error (.read path cause)
  | .ok text =>
    match reader.ofText text with
    | .error cause => .error (.parse path cause)
    | .ok config =>
      config.checkIgnores
      pure config

/-- The configuration that applies in a directory; there is none without a file. Mirrors
`load_config`. -/
def load? (tree : FileTree) (directory : Path) : Except ConfigError (Option Config) :=
  match find? tree directory with
  | none => .ok none
  | some path => some <$> read tree path

end Config

end ComponentSchema
