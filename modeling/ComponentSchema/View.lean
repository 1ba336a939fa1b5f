import ComponentSchema.Syntax.Name

/-!
# The declaration view

What the classifier and the traversal see of a source file: its declarations in source order, with
the parameters and annotations of everything function-like. A view node carries the id under which
the provider of the view kept the syntax it stands for.
-/
namespace ComponentSchema

/-- Identity of a type annotation. -/
structure NodeId where
  index : Nat
  deriving DecidableEq, Repr, Inhabited

/-- Identity of a function declaration, function expression or function type. -/
structure FunctionId where
  index : Nat
  deriving DecidableEq, Repr, Inhabited

/-- Identity of a class. -/
structure ClassId where
  index : Nat
  deriving DecidableEq, Repr, Inhabited

mutual

/-- A type annotation. -/
structure TypeNode where
  id : NodeId
  shape : TypeShape

/-- As much of an annotation as the classifier looks at. -/
inductive TypeShape where
  /-- `Name` or `A.B.Name`. -/
  | reference (name : EntityName)
  /-- `(props: P) => R`. -/
  | function (signature : FunctionLike)
  /-- Any other type. -/
  | other

/-- The call signature of a function declaration, function expression or function type. -/
structure FunctionLike where
  id : FunctionId
  parameters : List Parameter
  returnType : Option TypeNode

/-- A parameter and its annotation. -/
structure Parameter where
  name : String
  typeNode : Option TypeNode

end

/-- The signature that an annotation spells out, if it is a function type. -/
def TypeNode.function? (node : TypeNode) : Option FunctionLike :=
  match node.shape with
  | .function signature => some signature
  | _ => none

structure FunctionDeclaration where
  /-- `none` for `export default function () {}`. -/
  name : Option String
  /-- The name that an export clause of the same item list gives it. -/
  exportAlias : Option String
  exported : Bool
  signature : FunctionLike

/-- What a variable is initialized with. -/
inductive Initializer where
  /-- An arrow function or a function expression. -/
  | function (signature : FunctionLike)
  /-- Any other expression. -/
  | value

/-- One declarator of a variable statement. -/
structure VariableDeclaration where
  name : String
  exportAlias : Option String
  exported : Bool
  initializer : Option Initializer
  typeNode : Option TypeNode

structure ClassDeclaration where
  id : ClassId
  name : Option String
  exported : Bool
  deriving DecidableEq, Repr, Inhabited

/-- A declaration, as the traversal meets it. -/
inductive Declaration where
  | funDecl (declaration : FunctionDeclaration)
  | varDecl (declaration : VariableDeclaration)
  | namespaceDecl (name : String) (exported : Bool) (body : List Declaration)
  | classDecl (declaration : ClassDeclaration)

/-- Whether the declaration itself carries an `export` modifier. -/
def Declaration.exported : Declaration → Bool
  | .funDecl declaration => declaration.exported
  | .varDecl declaration => declaration.exported
  | .namespaceDecl _ exported _ => exported
  | .classDecl declaration => declaration.exported

/-- A source file, under the path it was reached by. -/
structure SourceFile where
  path : String
  declarations : List Declaration

end ComponentSchema
