import ComponentSchema.Facts

/-!
# Component classification

A declaration is a component if it is function-like and its call signature returns `JSX.Element`,
or its return annotation reads `JSX.Element`; either is enough.

The definitions model the classifier, and their docstrings name the operations of it that they mirror.
-/
namespace ComponentSchema

/-- The name of an anonymous default export. -/
def defaultExportName : String := "default"

/-- A declaration that classified as a component. Mirrors `ComponentCandidate`. -/
structure Candidate where
  name : String
  /-- The annotation of the first parameter. -/
  props : Option TypeNode

/-- Whether the return annotation reads `JSX.Element`, whatever that name leads to. Mirrors
`annotated_jsx_element`. -/
def FunctionLike.annotatedJsxElement (signature : FunctionLike) : Bool :=
  match signature.returnType with
  | some ⟨_, .reference (.qualified (.ident qualifier) name)⟩ => qualifier == "JSX" && name == "Element"
  | _ => false

/-- The annotation of the first parameter. Mirrors `props_type_node`. -/
def FunctionLike.propsNode? (signature : FunctionLike) : Option TypeNode :=
  signature.parameters.head?.bind (·.typeNode)

/-- The signature that a variable stands for: that of its initializer, and only without an
initializer that of its annotation. Mirrors `variable_signature`. -/
def VariableDeclaration.signature? (declaration : VariableDeclaration) : Option FunctionLike :=
  match declaration.initializer with
  | some (.function signature) => some signature
  | some .value => none
  | none => declaration.typeNode.bind TypeNode.function?

namespace Declaration

/-- The signature of a declaration that may be a component. -/
def signature? : Declaration → Option FunctionLike
  | .funDecl declaration => some declaration.signature
  | .varDecl declaration => declaration.signature?
  | .namespaceDecl .. => none
  | .classDecl _ => none

/-- The name a component is published under: its export alias, else its own name. -/
def publicName : Declaration → String
  | .funDecl declaration => (declaration.exportAlias <|> declaration.name).getD defaultExportName
  | .varDecl declaration => declaration.exportAlias.getD declaration.name
  | .namespaceDecl name .. => name
  | .classDecl declaration => declaration.name.getD defaultExportName

end Declaration

namespace TypeFacts

variable {m : Type → Type} [Monad m]

/-- Whether the call signature returns `JSX.Element`, annotated or inferred. Mirrors
`returns_jsx_element`. -/
def returnsJsxElement (facts : TypeFacts m) (signature : FunctionLike) : m Bool := do
  match ← facts.returnType signature with
  | none => pure false
  | some type => return (← facts.symbol type) == some TypeSymbol.jsxElement

/-- Whether the signature is that of a component. Mirrors `is_functional_component`. -/
def isComponent (facts : TypeFacts m) (signature : FunctionLike) : m Bool := do
  let returned ← facts.returnsJsxElement signature
  return returned || signature.annotatedJsxElement

/-- The component that a declaration is, if it is one. Mirrors `classify`. -/
def classify (facts : TypeFacts m) (declaration : Declaration) : m (Option Candidate) := do
  match declaration.signature? with
  | none => pure none
  | some signature =>
    if ← facts.isComponent signature then
      pure (some ⟨declaration.publicName, signature.propsNode?⟩)
    else
      pure none

end TypeFacts

end ComponentSchema
