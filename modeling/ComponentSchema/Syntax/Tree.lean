import ComponentSchema.Syntax.TypeExpr

/-!
# Source trees

The syntax of a source file: its items in order, with the declarations, function bodies and
expressions that are looked at later. Expressions and statements keep the shape that return
inference follows and the functions nested in them; all else is `other`.
-/
namespace ComponentSchema.Syntax

/-- A type annotation, with the text it was written as. -/
structure WrittenType where
  type : TypeExpr
  text : String

/-- One binding of `import { imported as local }`, `import local` or `import * as local`. -/
inductive ImportSpecifier where
  | named (imported : Option String) (localName : String)
  | default (localName : String)
  | all (localName : String)
  deriving DecidableEq, Repr, Inhabited

/-- One entry of `export { original as exported }` or `export * as exported`. -/
inductive ExportSpecifier where
  | named (original : String) (exported : Option String)
  | all (exported : String)
  deriving DecidableEq, Repr, Inhabited

/-- What a `namespace` or `module` declaration names. -/
inductive NamespaceName where
  | identifier (name : String)
  /-- `module "name"`. -/
  | string (name : String)
  /-- `global`. -/
  | global
  deriving DecidableEq, Repr, Inhabited

mutual

inductive Expr where
  | identifier (name : String)
  | null
  | string (value : StringLiteral)
  | template (parts : List Expr)
  | number (value : Binary64)
  | boolean
  /-- A JSX element or fragment, with the expressions inside it. -/
  | jsx (parts : List Expr)
  | parenthesized (inner : Expr)
  | void (operand : Expr)
  | conditional (test consequent alternate : Expr)
  /-- `left && right`. -/
  | logicalAnd (left right : Expr)
  /-- `left || right` or `left ?? right`. -/
  | alternative (left right : Expr)
  /-- `operand as Type` or `<Type>operand`. -/
  | cast (operand : Expr) (type : TypeExpr)
  | satisfies (operand : Expr)
  /-- `operand!`. -/
  | nonNull (operand : Expr)
  /-- `operand as const`. -/
  | constCast (operand : Expr)
  | arrow (function : Function)
  | function (function : Function)
  | classExpr (members : List ClassMember)
  /-- A member access, an index or an optional chain. -/
  | access (parts : List Expr)
  /-- An array, or an object without methods. -/
  | collection (parts : List Expr)
  /-- Any other expression, with its parts in order. -/
  | other (parts : List Expr)

/-- A function of any form. -/
structure Function where
  parameters : List Parameter
  returnType : Option TypeExpr
  /-- `none` for a signature without a body. -/
  body : Option Body
  isAsync : Bool
  isGenerator : Bool

inductive Body where
  | block (statements : List Stmt)
  | expression (value : Expr)

/-- A parameter of a function or constructor. A pattern has no name. -/
structure Parameter where
  name : Option String
  written : Option WrittenType
  /-- The default value. -/
  value : Option Expr

inductive ClassMember where
  /-- A constructor, with the comments before it. -/
  | constructor (leading : List Comment) (function : Function)
  /-- A method or accessor. -/
  | method (function : Function)
  | field (value : Option Expr)
  | staticBlock (body : Stmt)
  /-- An index signature or a stray semicolon. -/
  | other

/-- A statement. The branches of a `switch` and the parts of a `try` are blocks; a branch that is
missing is `other`. -/
inductive Stmt where
  | expression (value : Expr)
  | returns (value : Option Expr)
  | block (statements : List Stmt)
  | conditional (test : Expr) (consequent alternate : Stmt)
  /-- A loop of any kind: the expressions of its head, and its body. -/
  | loop (head : List Expr) (body : Stmt)
  | switch (subject : Expr) (tests : List Expr) (branches : List Stmt)
  | attempt (body handler finalizer : Stmt)
  /-- A labeled statement. -/
  | labeled (body : Stmt)
  | throws (value : Expr)
  /-- Variables that are declared here, by their initial values. -/
  | variables (values : List Expr)
  /-- A function that is declared here. -/
  | nestedFunction (function : Function)
  /-- A class that is declared here. -/
  | nestedClass (members : List ClassMember)
  /-- A statement with no part that matters. -/
  | other

end

instance : Inhabited Expr := ⟨.null⟩

/-- Whether a value can be assigned to an expression. Arrays and objects take one apart, which only
`=` does; what stands between parentheses is not looked at. -/
def Expr.isTarget (takesApart : Bool) : Expr → Bool
  | .identifier _ | .access _ | .parenthesized _ | .cast _ _ | .satisfies _ | .nonNull _ => true
  | .collection _ => takesApart
  | _ => false

instance : Inhabited Stmt := ⟨.other⟩

/-- One declarator of a variable statement. A pattern has no name. -/
structure Declarator where
  name : Option String
  type : Option TypeExpr
  value : Option Expr

mutual

/-- A declaration in a file or a namespace. -/
inductive Decl where
  | function (name : String) (function : Function)
  | variables (declarators : List Declarator)
  | classDecl (name : String) (members : List ClassMember)
  | interface (name : String) (members : List TypeMember)
  | typeAlias (name : String) (type : TypeExpr)
  | enum (name : String)
  | namespaceDecl (name : NamespaceName) (body : NamespaceBody)
  /-- `using` declarations. -/
  | other

inductive NamespaceBody where
  | items (items : List Item)
  /-- `namespace A.B { … }`: the body of `A` is the namespace `B`. -/
  | nested (name : String) (body : NamespaceBody)
  | absent

/-- An item of a file or of a namespace, with the comments before it. -/
structure Item where
  leading : List Comment
  kind : ItemKind

inductive ItemKind where
  | statement (statement : Stmt)
  | declaration (declaration : Decl)
  | exportDecl (declaration : Decl)
  | exportDefaultFunction (name : Option String) (function : Function)
  | exportDefaultClass (name : Option String) (members : List ClassMember)
  | exportDefaultInterface (name : String) (members : List TypeMember)
  | exportDefaultExpr (value : Expr)
  | imports (source : StringLiteral) (specifiers : List ImportSpecifier)
  | exportNamed (source : Option StringLiteral) (specifiers : List ExportSpecifier)
  | exportAll (source : StringLiteral)
  /-- `import a = b`, `export = a` or `export as namespace a`. -/
  | otherModule

end

instance : Inhabited Decl := ⟨.other⟩

/-- Whether an item makes its file a module. -/
def ItemKind.isModuleItem : ItemKind → Bool
  | .statement _ | .declaration _ => false
  | _ => true

/-- A parsed source file. -/
structure SourceTree where
  items : List Item

/-- A file without module items is a script: what it declares is global. -/
def SourceTree.isScript (tree : SourceTree) : Bool :=
  tree.items.all fun item => !item.kind.isModuleItem

end ComponentSchema.Syntax
