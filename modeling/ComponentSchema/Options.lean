/-!
# Compiler options

The language level of the sources and the module format. Neither changes what a program documents:
the extraction carries them along, and their names are what is checked.
-/
namespace ComponentSchema

/-- The language level of the sources. -/
inductive ScriptTarget where
  | es3 | es5 | es2015 | es2016 | es2017 | es2018 | es2019 | es2020 | es2021 | es2022 | esNext
  deriving DecidableEq, Repr

namespace ScriptTarget

/-- Every language level, oldest first. -/
def all : List ScriptTarget :=
  [es3, es5, es2015, es2016, es2017, es2018, es2019, es2020, es2021, es2022, esNext]

/-- The name that options give a language level. -/
def name : ScriptTarget → String
  | es3 => "es3"
  | es5 => "es5"
  | es2015 => "es2015"
  | es2016 => "es2016"
  | es2017 => "es2017"
  | es2018 => "es2018"
  | es2019 => "es2019"
  | es2020 => "es2020"
  | es2021 => "es2021"
  | es2022 => "es2022"
  | esNext => "esnext"

/-- The name of the language version that a parser reads the sources as. -/
def versionName : ScriptTarget → String
  | es3 => "Es3"
  | es5 => "Es5"
  | es2015 => "Es2015"
  | es2016 => "Es2016"
  | es2017 => "Es2017"
  | es2018 => "Es2018"
  | es2019 => "Es2019"
  | es2020 => "Es2020"
  | es2021 => "Es2021"
  | es2022 => "Es2022"
  | esNext => "EsNext"

/-- The language level of that name. -/
def ofName? (text : String) : Option ScriptTarget := all.find? (·.name == text)

/-- The language level of that name in a configuration, where `latest` is another name of
`esnext`. -/
def ofConfigName? (text : String) : Option ScriptTarget :=
  if text == "latest" then some esNext else ofName? text

end ScriptTarget

/-- The module format of the emitted code. -/
inductive ModuleKind where
  | none | commonJs | amd | umd | system | es2015 | es2020 | esNext | node16 | nodeNext
  deriving DecidableEq, Repr

namespace ModuleKind

/-- Every module format. -/
def all : List ModuleKind :=
  [none, commonJs, amd, umd, system, es2015, es2020, esNext, node16, nodeNext]

/-- The name that options give a module format. -/
def name : ModuleKind → String
  | none => "none"
  | commonJs => "commonjs"
  | amd => "amd"
  | umd => "umd"
  | system => "system"
  | es2015 => "es2015"
  | es2020 => "es2020"
  | esNext => "esnext"
  | node16 => "node16"
  | nodeNext => "nodenext"

/-- The module format of that name. -/
def ofName? (text : String) : Option ModuleKind := all.find? (·.name == text)

end ModuleKind

/-- The options that a program is loaded with. -/
structure CompilerOptions where
  target : ScriptTarget
  module : ModuleKind
  deriving DecidableEq, Repr

/-- The options where nothing is said. -/
def CompilerOptions.standard : CompilerOptions := ⟨.es5, .commonJs⟩

end ComponentSchema
