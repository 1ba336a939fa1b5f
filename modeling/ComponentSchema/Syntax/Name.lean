/-!
# Entity names

The names that type references are written with: `Element`, `JSX.Element`, `UI.Panel.Props`. A name
nests to the left, as it is read; its segments are the same name as a flat list, as scopes look it
up.
-/
namespace ComponentSchema

/-- A possibly qualified type name. Mirrors `EntityName`. -/
inductive EntityName where
  /-- A single identifier. -/
  | ident (name : String)
  /-- `left.name`. -/
  | qualified (left : EntityName) (name : String)
  deriving DecidableEq, Repr, Inhabited

namespace EntityName

/-- The name with the given dotted segments; there is none without a segment. Mirrors
`from_segments`. -/
def ofSegments? : List String → Option EntityName
  | [] => none
  | first :: rest => some (rest.foldl qualified (ident first))

/-- The segments of a name, outermost first. Mirrors `segments`. -/
def segments : EntityName → List String
  | ident name => [name]
  | qualified left name => left.segments ++ [name]

/-- The name as it is written, segments joined by dots. -/
def text (name : EntityName) : String :=
  ".".intercalate name.segments

@[simp] theorem segments_ident (name : String) : (ident name).segments = [name] := rfl

@[simp] theorem segments_qualified (left : EntityName) (name : String) :
    (qualified left name).segments = left.segments ++ [name] := rfl

end EntityName

/-- The segments of `JSX.Element`, the type that marks a component. -/
def jsxElementSegments : List String := ["JSX", "Element"]

end ComponentSchema
