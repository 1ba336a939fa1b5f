import ComponentSchema.Json.Printer
import ComponentSchema.Json.Record
import ComponentSchema.Record

/-!
# Records as JSON

How the output records are written and read. Every field is always written, an absent value as
`null`; the documented classes are no part of a written document.
-/
namespace ComponentSchema

open Json

namespace Component

/-- A component as JSON. -/
def toJson (component : Component) : Json :=
  .object [
    ("name", .string component.name),
    ("propsSchemaName", .ofOption .string component.propsSchemaName)]

/-- The fields of a component. The props schema may also be named under `propsName`. -/
def fields : List (RecordField Component) := [
  .required "name" Reader.text fun name c => { c with name },
  (RecordField.optional "propsSchemaName" Reader.text fun propsSchemaName c =>
    { c with propsSchemaName }).orKey "propsName"]

/-- Reads a component. -/
def reader : Reader Component := Reader.record fields ⟨"", none⟩

end Component

namespace Property

/-- A property as JSON. -/
def toJson (property : Property) : Json :=
  .object [
    ("name", .string property.name),
    ("intrinsicType", .ofOption .string property.intrinsicType),
    ("complexType", .ofOption .string property.complexType),
    ("optional", .bool property.optional)]

/-- The fields of a property. -/
def fields : List (RecordField Property) := [
  .required "name" Reader.text fun name p => { p with name },
  .optional "intrinsicType" Reader.text fun intrinsicType p => { p with intrinsicType },
  .optional "complexType" Reader.text fun complexType p => { p with complexType },
  .required "optional" Reader.flag fun optional p => { p with optional }]

/-- Reads a property. -/
def reader : Reader Property := Reader.record fields ⟨"", none, none, false⟩

end Property

namespace Schema

/-- A schema as JSON. -/
def toJson (schema : Schema) : Json :=
  .object [
    ("name", .string schema.name),
    ("properties", .ofList Property.toJson schema.properties)]

/-- The fields of a schema. -/
def fields : List (RecordField Schema) := [
  .required "name" Reader.text fun name s => { s with name },
  .required "properties" Property.reader.list fun properties s => { s with properties }]

/-- Reads a schema. -/
def reader : Reader Schema := Reader.record fields ⟨"", []⟩

end Schema

namespace DocEntry

mutual

/-- A documentation entry as JSON. -/
def toJson : DocEntry → Json
  | ⟨name, fileName, documentation, typeText, constructors, parameters, returnType⟩ =>
    .object [
      ("name", .ofOption .string name),
      ("fileName", .ofOption .string fileName),
      ("documentation", .ofOption .string documentation),
      ("type", .ofOption .string typeText),
      ("constructors", optionalEntries constructors),
      ("parameters", optionalEntries parameters),
      ("returnType", .ofOption .string returnType)]

/-- A list of entries that may be absent. -/
def optionalEntries : Option (List DocEntry) → Json
  | none => .null
  | some list => .array (entries list)

/-- The items of a list of entries. -/
def entries : List DocEntry → List Json
  | [] => []
  | entry :: rest => entry.toJson :: entries rest

end

/-- The fields of an entry, given a reader for lists of entries. -/
def fields (list : Reader (List DocEntry)) : List (RecordField DocEntry) := [
  .optional "name" Reader.text fun name e => { e with name },
  .optional "fileName" Reader.text fun fileName e => { e with fileName },
  .optional "documentation" Reader.text fun documentation e => { e with documentation },
  .optional "type" Reader.text fun typeText e => { e with typeText },
  .optional "constructors" list fun constructors e => { e with constructors },
  .optional "parameters" list fun parameters e => { e with parameters },
  .optional "returnType" Reader.text fun returnType e => { e with returnType }]

/-- Reads an entry where at most `depth` more brackets may open one inside the other. -/
def readerWithin : Nat → Reader DocEntry
  | 0 => Reader.tooDeep
  | 1 => Reader.record (fields Reader.tooDeep) DocEntry.blank
  | depth + 2 => Reader.record (fields (readerWithin depth).list) DocEntry.blank

/-- How many brackets may be open at once in a text that is read. -/
def nestingLimit : Nat := 127

/-- Reads an entry. -/
def reader : Reader DocEntry := readerWithin nestingLimit

end DocEntry

namespace Documentation

/-- A document as JSON. -/
def toJson (document : Documentation) : Json :=
  .object [
    ("types", .ofList Schema.toJson document.types),
    ("components", .ofList Component.toJson document.components)]

/-- The fields of a document. -/
def fields : List (RecordField Documentation) := [
  .required "types" Schema.reader.list fun types d => { d with types },
  .required "components" Component.reader.list fun components d => { d with components }]

/-- Reads a document; it has no classes. -/
def reader : Reader Documentation := Reader.record fields Documentation.empty

/-- The text of a document. Mirrors the command's `render`. -/
def render (document : Documentation) : String := document.toJson.text

end Documentation

end ComponentSchema
