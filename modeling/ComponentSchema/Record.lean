/-!
# Output records

What a run produces: schemas, components, and documentation entries of classes. Only schemas and
components are part of the written document.
-/
namespace ComponentSchema

/-- A component and the schema that describes its props. -/
structure Component where
  name : String
  propsSchemaName : Option String
  deriving DecidableEq, Repr, Inhabited

/-- A property of a named type. -/
structure Property where
  name : String
  /-- The keyword of an intrinsic type: `string`, `number`, … -/
  intrinsicType : Option String
  /-- The alias name of the property's type, which names a schema. -/
  complexType : Option String
  optional : Bool
  deriving DecidableEq, Repr, Inhabited

/-- The flat description of a named type. -/
structure Schema where
  name : String
  properties : List Property
  deriving DecidableEq, Repr, Inhabited

/-- A documentation entry for a class, a construct signature or a parameter; each kind fills the
fields that apply to it. -/
structure DocEntry where
  name : Option String
  fileName : Option String
  documentation : Option String
  typeText : Option String
  constructors : Option (List DocEntry)
  parameters : Option (List DocEntry)
  returnType : Option String
  deriving Repr

/-- The entry in which nothing is filled in. -/
def DocEntry.blank : DocEntry := ⟨none, none, none, none, none, none, none⟩

instance : Inhabited DocEntry := ⟨DocEntry.blank⟩

/-- Everything that one run finds, in the order in which it was met. Mirrors the output record of the
same name. -/
structure Documentation where
  types : List Schema
  components : List Component
  classes : List DocEntry
  deriving Repr, Inhabited

namespace Documentation

/-- The document of no files. -/
def empty : Documentation := ⟨[], [], []⟩

/-- The first schema of that name. -/
def schema? (document : Documentation) (name : String) : Option Schema :=
  document.types.find? (·.name == name)

end Documentation

end ComponentSchema
