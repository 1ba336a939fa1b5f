import ComponentSchema.Program.Types

/-!
# Inferred return types

A function without a return annotation returns `JSX.Element` if every value it returns, `null`,
`undefined` and `void` values apart, is JSX. The returns of functions and classes nested in its body
are not its own.

The definitions model the checker's return inference, and their docstrings name the operations that
they mirror.
-/
namespace ComponentSchema

open Syntax

/-- What is known about a returned value. Mirrors `Inferred`. -/
inductive Inferred where
  | jsx
  /-- `null`, `undefined` or a `void` expression. -/
  | nullish
  | type (id : TypeId)
  | unknown
  deriving DecidableEq, Repr, Inhabited

/-- What is known about a value that is one of two. Mirrors `combine`. -/
def Inferred.combine : Inferred → Inferred → Inferred
  | nullish, other => other
  | other, nullish => other
  | left, right => if left == right then left else unknown

mutual

/-- The values that a statement returns from the function around it, in order. Mirrors
`ReturnCollector`. -/
def returnedBy : Stmt → List (Option Expr)
  | .returns value => [value]
  | .block statements => returnedByAll statements
  | .conditional _ consequent alternate => returnedBy consequent ++ returnedBy alternate
  | .loop _ body => returnedBy body
  | .switch _ _ branches => returnedByAll branches
  | .attempt body handler finalizer => returnedBy body ++ returnedBy handler ++ returnedBy finalizer
  | .labeled body => returnedBy body
  | _ => []

/-- The values that a list of statements returns. -/
def returnedByAll : List Stmt → List (Option Expr)
  | [] => []
  | statement :: rest => returnedBy statement ++ returnedByAll rest

end

namespace Resolve

/-- What a cast says about its value. Mirrors `annotated`. -/
def inferCast (index : Index) (scope : ScopeId) (type : TypeExpr) : Resolve Inferred := do
  match ← resolve index scope type with
  | some id => pure (.type id)
  | none => pure .unknown

/-- What is known about the value of an expression. Mirrors `infer_expr`. -/
def inferExpr (index : Index) (scope : ScopeId) : Expr → Resolve Inferred
  | .jsx _ => pure .jsx
  | .parenthesized inner => inferExpr index scope inner
  | .null => pure .nullish
  | .identifier name => pure (if name == "undefined" then .nullish else .unknown)
  | .void _ => pure .nullish
  | .conditional _ consequent alternate => do
    let first ← inferExpr index scope consequent
    let second ← inferExpr index scope alternate
    pure (first.combine second)
  | .logicalAnd _ right => inferExpr index scope right
  | .alternative left right => do
    let first ← inferExpr index scope left
    let second ← inferExpr index scope right
    pure (first.combine second)
  | .cast _ type => inferCast index scope type
  | .satisfies inner => inferExpr index scope inner
  | .nonNull inner => inferExpr index scope inner
  | .constCast inner => inferExpr index scope inner
  | .string _ => .type <$> intrinsic .string
  | .template _ => .type <$> intrinsic .string
  | .number _ => .type <$> intrinsic .number
  | .boolean => .type <$> intrinsic .boolean
  | _ => pure .unknown

/-- What is known about a returned value; without an expression it is `undefined`. -/
def inferReturned (index : Index) (scope : ScopeId) : Option Expr → Resolve Inferred
  | some value => inferExpr index scope value
  | none => pure .nullish

/-- What is known about a value that is one of several. -/
def inferAny (index : Index) (scope : ScopeId) (values : List (Option Expr)) : Resolve Inferred :=
  values.foldlM
    (fun known value => return known.combine (← inferReturned index scope value)) .nullish

/-- The type that stands for what is known. -/
def inferredType (index : Index) (scope : ScopeId) : Inferred → Resolve (Option TypeId)
  | .jsx => jsxElement index scope
  | .type id => pure (some id)
  | .nullish | .unknown => pure none

/-- The return type of a function body. A body without `return` returns `void`. Mirrors
`infer_return`. -/
def inferReturn (index : Index) (scope : ScopeId) : Body → Resolve (Option TypeId)
  | .expression value => do inferredType index scope (← inferExpr index scope value)
  | .block statements =>
    match returnedByAll statements with
    | [] => some <$> intrinsic .void
    | values => do inferredType index scope (← inferAny index scope values)

/-- The return type of a signature without a return annotation. -/
def returnTypeOf (index : Index) (function : FunctionId) : Resolve (Option TypeId) :=
  match index.functionSites[function.index]? with
  | none => pure none
  | some site =>
    if site.wrapsResult then pure none
    else
      match site.body with
      | none => pure none
      | some body => inferReturn index site.scope body

end Resolve

end ComponentSchema
