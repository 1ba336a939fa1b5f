import ComponentSchema.Files.Path
import ComponentSchema.Options

/-!
# Command line

`PATH...` with the options `--target NAME`, `--module NAME`, `--dedupe`, `--verbose` and the
requests `--help` and `--version`. A value may follow its option after `=`, short flags may stand
together, and after `--` every argument is a path.

Arguments are read one after the other, and the first that is wrong decides. Values are looked at
when the next option, flag or path is read, so that an unknown option right after them comes first.
-/
namespace ComponentSchema

/-- What a command line asks for. Mirrors the command's `Arguments`. -/
structure CommandLine where
  paths : List Path
  target : Option ScriptTarget
  module : Option ModuleKind
  dedupe : Bool
  verbose : Bool
  deriving DecidableEq, Repr

/-- Why a command line is not run. -/
inductive Refusal where
  | helpAsked
  | versionAsked
  | unknownArgument
  | invalidValue
  | missingArgument
  | repeatedArgument
  | unexpectedValue
  deriving DecidableEq, Repr, Inhabited

/-- Options that take a value. -/
inductive ValueOption where
  | target
  | module
  deriving DecidableEq, Repr, Inhabited

/-- Options without a value. -/
inductive Flag where
  | dedupe
  | verbose
  | help
  | version
  deriving DecidableEq, Repr, Inhabited

/-- Values that were read and not looked at yet. -/
inductive PendingValues where
  | none
  /-- The value of an option, which may still be to come. -/
  | ofOption (option : ValueOption) (value : Option String)
  | paths (texts : List String)
  deriving DecidableEq, Repr, Inhabited

/-- A command line while it is read. -/
structure ArgumentState where
  line : CommandLine
  pending : PendingValues
  deriving DecidableEq, Repr

namespace ArgumentState

/-- Nothing read yet. -/
def start : ArgumentState := ⟨⟨[], none, none, false, false⟩, .none⟩

/-- Sets an option that is not set yet. -/
def setOption (line : CommandLine) (value : String) : ValueOption → Except Refusal CommandLine
  | .target =>
    if line.target.isSome then .error .repeatedArgument
    else
      match ScriptTarget.ofName? value with
      | some target => .ok { line with target := some target }
      | none => .error .invalidValue
  | .module =>
    if line.module.isSome then .error .repeatedArgument
    else
      match ModuleKind.ofName? value with
      | some module => .ok { line with module := some module }
      | none => .error .invalidValue

/-- Looks at the pending values. An option needs its value, and a path is not empty. -/
def settle (state : ArgumentState) : Except Refusal ArgumentState := do
  match state.pending with
  | .none => pure state
  | .ofOption _ none => throw .invalidValue
  | .ofOption option (some value) => return ⟨← setOption state.line value option, .none⟩
  | .paths texts =>
    if texts.any (·.isEmpty) then throw .invalidValue
    else pure ⟨{ state.line with paths := state.line.paths ++ texts.map Path.mk }, .none⟩

/-- A flag was read. -/
def setFlag (state : ArgumentState) (flag : Flag) : Except Refusal ArgumentState := do
  let ⟨line, pending⟩ ← state.settle
  match flag with
  | .help => throw .helpAsked
  | .version => throw .versionAsked
  | .dedupe =>
    if line.dedupe then throw .repeatedArgument else pure ⟨{ line with dedupe := true }, pending⟩
  | .verbose =>
    if line.verbose then throw .repeatedArgument else pure ⟨{ line with verbose := true }, pending⟩

/-- The option of a long name. -/
def valueOption? (name : String) : Option ValueOption :=
  if name == "target" then some .target else if name == "module" then some .module else none

/-- The flag of a long name. -/
def longFlag? (name : String) : Option Flag :=
  if name == "dedupe" then some .dedupe
  else if name == "verbose" then some .verbose
  else if name == "help" then some .help
  else if name == "version" then some .version
  else none

/-- The flag of a short name. -/
def shortFlag? (c : Char) : Option Flag :=
  if c == 'v' then some .verbose
  else if c == 'h' then some .help
  else if c == 'V' then some .version
  else none

/-- An argument that starts with two hyphens; `text` is what follows them. -/
def long (state : ArgumentState) (text : List Char) : Except Refusal ArgumentState := do
  let name := text.takeWhile (· != '=')
  let value := (text.drop name.length).tail?.map String.ofList
  match valueOption? (String.ofList name), longFlag? (String.ofList name), value with
  | some option, _, some value =>
    let ⟨line, _⟩ ← state.settle
    return ⟨← setOption line value option, .none⟩
  | some option, _, none =>
    let ⟨line, _⟩ ← state.settle
    pure ⟨line, .ofOption option none⟩
  | none, some _, some _ => throw .unexpectedValue
  | none, some flag, none => state.setFlag flag
  | none, none, _ => throw .unknownArgument

/-- An argument that starts with one hyphen; `text` is what follows it. -/
def short (state : ArgumentState) (text : List Char) : Except Refusal ArgumentState :=
  text.foldlM
    (fun state c =>
      match shortFlag? c with
      | some flag => state.setFlag flag
      | none => .error .unknownArgument)
    state

/-- A path. -/
def path (state : ArgumentState) (text : String) : Except Refusal ArgumentState :=
  match state.pending with
  | .paths texts => .ok { state with pending := .paths (texts ++ [text]) }
  | _ => state.settle.map fun state => { state with pending := .paths [text] }

/-- An argument that does not start with a hyphen: a value that is to come, or a path. -/
def plain (state : ArgumentState) (text : String) : Except Refusal ArgumentState :=
  match state.pending with
  | .ofOption option none => .ok { state with pending := .ofOption option (some text) }
  | _ => state.path text

/-- Reads arguments in order. -/
def read : ArgumentState → List String → Except Refusal ArgumentState
  | state, [] => .ok state
  | state, argument :: rest => do
    match argument.toList with
    | ['-', '-'] => rest.foldlM path state
    | '-' :: '-' :: text => (← state.long text).read rest
    | ['-'] => (← state.plain argument).read rest
    | '-' :: text => (← state.short text).read rest
    | _ => (← state.plain argument).read rest

end ArgumentState

/-- The command line that a list of arguments is. At least one path is needed. -/
def CommandLine.ofArguments (arguments : List String) : Except Refusal CommandLine := do
  let state ← ArgumentState.start.read arguments
  let ⟨line, _⟩ ← state.settle
  if line.paths.isEmpty then throw .missingArgument else pure line

end ComponentSchema
