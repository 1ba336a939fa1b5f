/-!
# JSON values

The values that documents and configurations are made of. There are no numbers among them. The
members of an object have an order, and nothing keeps a key from being there twice.
-/
namespace ComponentSchema

inductive Json where
  | null
  | bool (value : Bool)
  | string (text : String)
  | array (items : List Json)
  | object (members : List (String × Json))
  deriving Repr, Inhabited

namespace Json

/-- A value that may be absent; absence is written as `null`. -/
def ofOption {α : Type} (write : α → Json) : Option α → Json
  | none => null
  | some value => write value

/-- A list of values. -/
def ofList {α : Type} (write : α → Json) (values : List α) : Json := array (values.map write)

end Json

end ComponentSchema
