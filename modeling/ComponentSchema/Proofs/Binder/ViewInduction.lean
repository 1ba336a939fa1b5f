import ComponentSchema.Program.Binding

/-!
# Steps that keep the syntax of a view

The view of a function or a variable is made from views of annotations, each of which is kept on the way,
and so is the body of each function. The annotations that are kept are those that the view shows: the
parameters and the result of a function type are, the parts of a union are not.

What is said of such steps may be anything that holds of keeping one annotation or one body and of one
step after the other (`Binding.Keeping`), and may mention what is kept.

Results.
* `Keeping.typeNode`: by induction on annotations.
* `Keeping.function`, `Keeping.variableDecl`: the views of a function and of a declarator.
-/
namespace ComponentSchema

open Syntax

/-! ## Pieces -/

/-- A part of a file that types are resolved from, or that names lead through. -/
inductive Piece where
  | type (type : TypeExpr)
  | body (body : Body)
  /-- A declaration of a type, as it is written: with one body, if it is an interface. -/
  | declares (name : String) (kind : TypeDeclKind)
  | imports (name : String) (binding : ImportBinding)

mutual

/-- An annotation, and those inside it that have views. -/
def Syntax.TypeExpr.pieces : TypeExpr → List Piece
  | .function parameters returnType =>
    .type (.function parameters returnType) :: (parameterPieces parameters ++ returnType.pieces)
  | type => [.type type]

/-- The annotations of the parameters of a function type. -/
def Syntax.parameterPieces : List TypeParameter → List Piece
  | [] => []
  | ⟨_, none⟩ :: rest => parameterPieces rest
  | ⟨_, some type⟩ :: rest => type.pieces ++ parameterPieces rest

end

/-- The pieces of an annotation that may be missing. -/
def annotationPieces (type : Option TypeExpr) : List Piece := (type.map TypeExpr.pieces).getD []

/-- The body of a function, and its annotations. -/
def Syntax.Function.pieces (definition : Function) : List Piece :=
  definition.body.toList.map .body ++
    ((definition.parameters.flatMap fun parameter => annotationPieces (parameter.written.map (·.type))) ++
      annotationPieces definition.returnType)

/-- The pieces of the function that an initializer is, if it is one. -/
def initializerPieces (value : Option Expr) : List Piece :=
  ((value.bind (·.function?)).map Function.pieces).getD []

/-- The annotation of a declarator, and the function that it is initialized with. A pattern has no
view. -/
def Syntax.Declarator.pieces (declarator : Declarator) : List Piece :=
  match declarator.name with
  | none => []
  | some _ => annotationPieces declarator.type ++ initializerPieces declarator.value

/-! ## Steps -/

namespace Binding

/-- What is said of steps that keep some pieces in a scope. -/
structure Keeping (x : ScopeId) where
  Holds : ∀ {α : Type}, Binding α → List Piece → Prop
  done : ∀ {α} (answer : α), Holds (pure answer) []
  bind : ∀ {α β} {first : Binding α} {next : α → Binding β} {pieces others}, Holds first pieces →
    (∀ answer, Holds (next answer) others) → Holds (first >>= next) (pieces ++ others)
  typeSite : ∀ type, Holds (addTypeSite x type) [.type type]
  functionSite : ∀ body wrapsResult,
    Holds (addFunctionSite ⟨x, body, wrapsResult⟩) (body.toList.map .body)

namespace Keeping

variable {x : ScopeId} (k : Keeping x) {α β : Type}

theorem bind_pure {first : Binding α} {pieces : List Piece} (h : k.Holds first pieces) (f : α → β) :
    k.Holds (first >>= fun answer => pure (f answer)) pieces := by
  have hbind := k.bind h fun answer => k.done (f answer)
  rwa [List.append_nil] at hbind

mutual

theorem typeNode : ∀ type : TypeExpr, k.Holds (Binding.typeNode x type) type.pieces
  | .reference name => by
    simp only [Binding.typeNode]
    exact k.bind_pure (k.typeSite _) _
  | .function parameters returnType => by
    simp only [Binding.typeNode, TypeExpr.pieces]
    -- A function type has no body.
    show k.Holds _ ([.type (.function parameters returnType)] ++
      ([] ++ (parameterPieces parameters ++ returnType.pieces)))
    refine k.bind (k.typeSite _) fun _ => ?_
    refine k.bind (k.functionSite none false) fun _ => ?_
    refine k.bind (typeParameters parameters 0) fun _ => ?_
    exact k.bind_pure (typeNode returnType) _
  | .keyword _ | .parenthesized _ | .literal _ | .union _ | .intersection _ | .constructor | .other => by
    simp only [Binding.typeNode]
    exact k.bind_pure (k.typeSite _) _

theorem typeParameters : ∀ (parameters : List TypeParameter) (position : Nat),
    k.Holds (Binding.typeParameters x position parameters) (parameterPieces parameters)
  | [], position => by
    simp only [Binding.typeParameters]
    exact k.done _
  | ⟨name, none⟩ :: rest, position => by
    simp only [Binding.typeParameters, parameterPieces]
    exact k.bind_pure (typeParameters rest (position + 1)) _
  | ⟨name, some type⟩ :: rest, position => by
    simp only [Binding.typeParameters, parameterPieces]
    exact k.bind (typeNode type) fun _ => k.bind_pure (typeParameters rest (position + 1)) _

end

theorem maybeTypeNode (type : Option TypeExpr) :
    k.Holds (Binding.maybeTypeNode x type) (annotationPieces type) := by
  cases type with
  | none => exact k.done _
  | some type => exact k.bind_pure (k.typeNode type) _

theorem functionParameters (position : Nat) (parameters : List Syntax.Parameter) :
    k.Holds (Binding.functionParameters x position parameters)
      (parameters.flatMap fun parameter => annotationPieces (parameter.written.map (·.type))) := by
  induction parameters generalizing position with
  | nil => exact k.done _
  | cons parameter rest ih =>
    exact k.bind (k.maybeTypeNode _) fun _ => k.bind_pure (ih (position + 1)) _

theorem function (definition : Function) : k.Holds (Binding.function x definition) definition.pieces := by
  refine k.bind (k.functionSite _ _) fun _ => ?_
  refine k.bind (k.functionParameters 0 _) fun _ => ?_
  exact k.bind_pure (k.maybeTypeNode _) _

theorem initializer (value : Expr) :
    k.Holds (Binding.initializer x value) (initializerPieces (some value)) := by
  unfold Binding.initializer initializerPieces
  rw [Option.bind_some]
  cases value.function? with
  | none => exact k.done _
  | some definition => exact k.bind_pure (k.function definition) _

theorem variableDecl (exported : Bool) (aliases : List (String × String)) (declarator : Declarator) :
    k.Holds (Binding.variableDecl x exported aliases declarator) declarator.pieces := by
  obtain ⟨_ | name, type, value⟩ := declarator
  · exact k.done _
  · refine k.bind (k.maybeTypeNode type) fun _ => ?_
    cases value with
    | none => exact k.done _
    | some value => exact k.bind_pure (k.bind_pure (k.initializer value) some) _

end Keeping

end Binding

end ComponentSchema
