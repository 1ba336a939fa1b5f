import ComponentSchema.Extract
import ComponentSchema.Json.Printer
import ComponentSchema.Json.Record
import ComponentSchema.Options

/-!
# Options as JSON

How language levels, module formats, schema modes and compiler options are written and read.
-/
namespace ComponentSchema

open Json

/-- A language level as JSON. -/
def ScriptTarget.toJson (target : ScriptTarget) : Json := .string target.name

/-- Reads a language level. -/
def ScriptTarget.reader : Reader ScriptTarget := Reader.choice ofConfigName?

/-- A module format as JSON. -/
def ModuleKind.toJson (kind : ModuleKind) : Json := .string kind.name

/-- Reads a module format. -/
def ModuleKind.reader : Reader ModuleKind := Reader.choice ofName?

namespace SchemaMode

/-- The name of a schema mode. -/
def name : SchemaMode → String
  | repeated => "repeat"
  | dedupe => "dedupe"

/-- The schema mode of that name. -/
def ofName? (text : String) : Option SchemaMode := [repeated, dedupe].find? (·.name == text)

/-- A schema mode as JSON. -/
def toJson (mode : SchemaMode) : Json := .string mode.name

/-- Reads a schema mode. -/
def reader : Reader SchemaMode := Reader.choice ofName?

end SchemaMode

namespace CompilerOptions

/-- Compiler options as JSON. -/
def toJson (options : CompilerOptions) : Json :=
  .object [("target", options.target.toJson), ("module", options.module.toJson)]

/-- The fields of compiler options. -/
def fields : List (RecordField CompilerOptions) := [
  .standard "target" ScriptTarget.reader standard.target fun target o => { o with target },
  .standard "module" ModuleKind.reader standard.module fun module o => { o with module }]

/-- Reads compiler options. -/
def reader : Reader CompilerOptions := Reader.record fields standard

end CompilerOptions

end ComponentSchema
