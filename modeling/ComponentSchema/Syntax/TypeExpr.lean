import ComponentSchema.Syntax.Name
import ComponentSchema.Syntax.Token

/-!
# Type expressions

The syntax of types, as far as the meaning of a type or the view of a declaration depends on it.
Forms that stand for a type without members and without a name of their own are all `other`.
-/
namespace ComponentSchema.Syntax

/-- A keyword that is a type. -/
inductive KeywordType where
  | any | unknown | number | object | boolean | bigint | string | symbol | void | undefined | null
  | never | intrinsic
  deriving DecidableEq, Repr, Inhabited

namespace KeywordType

/-- The keyword as it is written. -/
def text : KeywordType → String
  | any => "any"
  | unknown => "unknown"
  | number => "number"
  | object => "object"
  | boolean => "boolean"
  | bigint => "bigint"
  | string => "string"
  | symbol => "symbol"
  | void => "void"
  | undefined => "undefined"
  | null => "null"
  | never => "never"
  | intrinsic => "intrinsic"

/-- Every keyword that is a type. -/
def all : List KeywordType := [any, unknown, number, object, boolean, bigint, string, symbol, void,
  undefined, null, never, intrinsic]

/-- The keyword that a word is. -/
def ofText? (word : String) : Option KeywordType :=
  all.find? (·.text == word)

/-- `null` and `undefined` are dropped from unions. -/
def isNullish (keyword : KeywordType) : Bool :=
  keyword == null || keyword == undefined

end KeywordType

/-- The key that a member is written with. -/
inductive PropertyKey where
  | identifier (name : String)
  /-- A string literal, in brackets or not. -/
  | string (value : StringLiteral)
  /-- A numeric literal, in brackets or not. -/
  | number (value : Binary64)
  /-- Any other expression. -/
  | computed
  deriving DecidableEq, Repr, Inhabited

/-- The name that a key gives to its member, if it is known without evaluation. -/
def PropertyKey.name? : PropertyKey → Option String
  | identifier name => some name
  | string value => some value.lossy
  | number value => some value.text
  | computed => none

mutual

inductive TypeExpr where
  | keyword (keyword : KeywordType)
  /-- A name; type arguments have no influence on it. -/
  | reference (name : EntityName)
  | parenthesized (inner : TypeExpr)
  /-- `{ a: A; b(): B }`. -/
  | literal (members : List TypeMember)
  | union (parts : List TypeExpr)
  | intersection (parts : List TypeExpr)
  /-- `(a: A) => B`. -/
  | function (parameters : List TypeParameter) (returnType : TypeExpr)
  /-- `new (a: A) => B`. -/
  | constructor
  /-- Any other type. -/
  | other

/-- A member of a type literal or an interface. -/
inductive TypeMember where
  | property (key : PropertyKey) (optional : Bool) (type : Option TypeExpr)
  | method (key : PropertyKey) (optional : Bool)
  | getter (key : PropertyKey) (type : Option TypeExpr)
  /-- A call, construct or index signature, or a setter. -/
  | other

/-- A parameter of a function type; a pattern has no name. -/
structure TypeParameter where
  name : Option String
  type : Option TypeExpr

end

instance : Inhabited TypeExpr := ⟨.other⟩

instance : Inhabited TypeMember := ⟨.other⟩

end ComponentSchema.Syntax
