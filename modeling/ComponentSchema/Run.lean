import ComponentSchema.CommandLine
import ComponentSchema.Config
import ComponentSchema.Files.Scan
import ComponentSchema.Program
import ComponentSchema.Record.Json

/-!
# Runs

From a command line and a file tree to the text of a document. The command line goes before the
configuration that applies in the working directory, and that goes before what is assumed otherwise.
-/
namespace ComponentSchema

/-- Why a run ends without a document. -/
inductive RunError where
  | config (cause : ConfigError)
  | noSources
  | load (cause : LoadError)
  deriving DecidableEq, Repr, Inhabited

/-- The message for an error. -/
def RunError.message : RunError → String
  | config cause => cause.message
  | noSources => "No source files found in the given paths"
  | load cause => cause.message

/-- What a run goes by. -/
structure Settings where
  options : CompilerOptions
  mode : SchemaMode
  deriving DecidableEq, Repr

/-- The settings that a command line and a configuration make together. -/
def CommandLine.settings (line : CommandLine) (config : Config) : Settings where
  options := ⟨line.target.getD config.target, line.module.getD config.module⟩
  mode := if line.dedupe then .dedupe else config.mode

/-- The absolute path of the working directory. -/
def FileTree.currentPath (tree : FileTree) : Path := ⟨"/" ++ "/".intercalate tree.current⟩

/-- The document that a command line asks for. Mirrors the command's `run`. -/
def CommandLine.run (tree : FileTree) (line : CommandLine) : Except RunError Documentation := do
  let base := tree.currentPath
  let config := (← (Config.load? tree base).mapError .config).getD Config.standard
  let files := tree.scan base line.paths config.ignores config.ignoreTestFiles
  if files.isEmpty then throw .noSources
  (documentFiles tree files (line.settings config).mode).mapError .load

/-- How a run ends. -/
inductive Outcome where
  | refused (refusal : Refusal)
  | failed (error : RunError)
  | documented (document : Documentation)
  deriving Repr, Inhabited

namespace Outcome

/-- How the run of a list of arguments ends. -/
def ofArguments (tree : FileTree) (arguments : List String) : Outcome :=
  match CommandLine.ofArguments arguments with
  | .error refusal => refused refusal
  | .ok line =>
    match line.run tree with
    | .error error => failed error
    | .ok document => documented document

/-- The exit status: success unless a command line is wrong or a run fails. -/
def exitStatus : Outcome → Nat
  | refused .helpAsked | refused .versionAsked => 0
  | refused _ => 2
  | failed _ => 2
  | documented _ => 0

/-- What a run writes to its output. -/
def output : Outcome → String
  | documented document => document.render ++ "\n"
  | _ => ""

/-- The line that reports a failed run. -/
def errorLine? : Outcome → Option String
  | failed error => some ("error: " ++ error.message)
  | _ => none

end Outcome

end ComponentSchema
