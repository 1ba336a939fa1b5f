import ComponentSchema.Run

/-!
# The program

Takes a picture of the part of the file system that a run may ask about, runs the command line on
it, and writes what comes out. The picture holds the repository around the working directory, the
directories of paths that lead elsewhere, and the configuration files above.
-/
namespace ComponentSchema

/-- The location that an absolute path spells. -/
def Path.location (path : Path) : Location :=
  path.components.foldl
    (fun location component =>
      match component with
      | .root => []
      | .current => location
      | .parent => location.dropLast
      | .normal name => location ++ [name])
    []

/-- The absolute path of a location. -/
def absoluteText (location : Location) : String := "/" ++ "/".intercalate location

/-- Whether the text of a file may be asked for: it is a source, a configuration, or named in an
argument. -/
def isWanted (named : List Location) (location : Location) : Bool :=
  let path : Path := ⟨absoluteText location⟩
  named.contains location || sourceEndings.any path.endsWith || path.fileName? == some Config.fileName

/-- What stands at a location and below it; links are left out. -/
partial def gather (named : List Location) (location : Location) : IO (List (Location × Entry)) := do
  let path := (← IO.currentDir) / absoluteText location
  if !(← path.pathExists) then return []
  match (← path.symlinkMetadata).type with
  | .dir =>
    let below ← (← path.readDir).toList.mapM fun entry => gather named (location ++ [entry.fileName])
    return (location, .directory) :: below.flatten
  | .file =>
    let text ← if isWanted named location then String.fromUTF8? <$> IO.FS.readBinFile path else pure none
    return [(location, .file text)]
  | _ => return []

/-- The nearest directory at or above a location that holds a repository. -/
partial def repositoryAround? (location : Location) : IO (Option Location) := do
  let mark := (← IO.currentDir) / absoluteText (location ++ [Config.repositoryName])
  if ← mark.pathExists then return some location
  if location.isEmpty then return none
  repositoryAround? location.dropLast

/-- A location and those above it, without the root. -/
def withDirectories (location : Location) : List Location :=
  (List.range location.length).map fun count => location.take (count + 1)

/-- The picture of the file system for a command line. -/
def picture (paths : List Path) : IO FileTree := do
  let current := Path.location ⟨(← IO.currentDir).toString⟩
  let project := (← repositoryAround? current).getD current
  let named := paths.map fun path => ((Path.mk (absoluteText current)).join path).location
  let starts := project :: (named.filter fun location => !project.isPrefixOf location).map List.dropLast
  let above := (starts.flatMap withDirectories).eraseDups
  let configs ← (withDirectories project).mapM fun location =>
    gather named (location.dropLast ++ [Config.fileName])
  let entries ← starts.mapM (gather named)
  return ⟨above.map (·, .directory) ++ configs.flatten ++ entries.flatten, current⟩

/-- What is said about a command line that is not run. -/
def Refusal.message : Refusal → String
  | helpAsked =>
    "PATH... [--target NAME] [--module NAME] [--dedupe] [--verbose] [--help] [--version]"
  | versionAsked => "0.1.0"
  | unknownArgument => "error: unexpected argument"
  | invalidValue => "error: invalid value"
  | missingArgument => "error: no path was given"
  | repeatedArgument => "error: an option was given twice"
  | unexpectedValue => "error: unexpected value"

end ComponentSchema

open ComponentSchema in
/-- Runs the command line and answers with its exit status. -/
def main (arguments : List String) : IO UInt32 := do
  let paths :=
    match CommandLine.ofArguments arguments with
    | .ok line => line.paths
    | .error _ => []
  let outcome := Outcome.ofArguments (← picture paths) arguments
  match outcome with
  | .refused refusal =>
    if outcome.exitStatus == 0 then IO.println refusal.message else IO.eprintln refusal.message
  | .failed _ => IO.eprintln (outcome.errorLine?.getD "")
  | .documented _ => IO.print outcome.output
  return outcome.exitStatus.toUInt32
