import ComponentSchema.Syntax.Grammar.Types

/-!
# Bindings, parameters and function bodies

Readers of what a declaration or a parameter binds, of parameter lists, and of functions from their
parameters on.
-/
namespace ComponentSchema.Syntax

open Parse

namespace Grammar

variable (g : Grammar)

/-! ## Bindings -/

/-- `= value`, if there is one. -/
def maybeDefault : Parse (Option Expr) := do
  if ← eatMark "=" then some <$> g.assignment Place.free else pure none

/-- An element of an array pattern; it may be missing. -/
def arrayPatternElement : Parse Unit := do
  if ← atMark "," then pure ()
  else
    let _ ← eatMark "..."
    let _ ← g.binding
    let _ ← g.maybeDefault

/-- A property of an object pattern. -/
def objectPatternProperty : Parse Unit := do
  if ← eatMark "..." then
    let _ ← g.binding
  else
    let key ← g.propertyKey
    if ← eatMark ":" then
      let _ ← g.binding
    else
      match key with
      | .identifier _ => pure ()
      | _ => fail ":"
    let _ ← g.maybeDefault

/-- A name or a pattern. -/
def bindingRule : Parse (Option String) := do
  if ← eatMark "[" then
    let _ ← commaList "]" g.arrayPatternElement g.bound
    pure none
  else if ← eatMark "\x7b" then
    let _ ← commaList "\x7d" g.objectPatternProperty g.bound
    pure none
  else some <$> boundName

/-! ## Parameters -/

/-- `: T` with its text, if there is one. -/
def maybeWrittenType : Parse (Option WrittenType) := do
  if ← eatMark ":" then
    let before ← get
    let origin ← g.typeStart
    set before
    let type ← g.type
    let text ← textSince origin
    pure (some ⟨type, text⟩)
  else pure none

/-- A parameter. -/
def parameter : Parse Parameter := do
  let _ ← eatMark "..."
  let name ← g.binding
  let _ ← eatMark "?"
  let written ← g.maybeWrittenType
  let value ← g.maybeDefault
  pure ⟨name, written, value⟩

/-- The parameters between parentheses. -/
def parameters : Parse (List Parameter) := do
  expectMark "("
  commaList ")" g.parameter g.bound

/-- Modifiers that make a constructor parameter a property. -/
def parameterModifiers : List String := ["public", "private", "protected", "readonly", "override"]

/-- A parameter of a constructor. -/
def constructorParameter : Parse Parameter := do
  let _ ← many (do
    let modifies ← ahead (do
      match ← kind with
      | .word word true =>
        if !parameterModifiers.contains word then pure false
        else
          advance
          return (← atName) || (← atMark "\x7b") || (← atMark "[")
      | _ => pure false)
    if modifies then advance; pure (some ()) else pure none) g.bound
  g.parameter

/-! ## Bodies -/

/-- The statements between braces. -/
def statements : Parse (List Stmt) := do
  expectMark "\x7b"
  let found ← many (do
    if ← atMark "\x7d" then pure none else some <$> g.statement) g.bound
  expectMark "\x7d"
  pure found

/-- A body in braces. -/
def blockBody : Parse Body := .block <$> g.statements

/-- A body in braces, or the end of a signature that has none. -/
def maybeBody : Parse (Option Body) := do
  if ← atMark "\x7b" then some <$> g.blockBody
  else
    endStatement
    pure none

/-- A function from its type parameters on; `body` reads its body. -/
def functionRest (isAsync isGenerator : Bool) (body : Parse (Option Body)) : Parse Function := do
  g.maybeTypeParameters
  let parameters ← g.parameters
  let returnType ← g.maybeReturnType
  let body ← body
  pure ⟨parameters, returnType, body, isAsync, isGenerator⟩

/-- Whether `async function` is next. -/
def atAsyncFunction : Parse Bool :=
  ahead (do
    expectWord "async"
    return (← atWord "function") && !(← atNewline))

/-- A function expression. -/
def functionExpr : Parse Expr := do
  let isAsync ← eatWord "async"
  expectWord "function"
  let isGenerator ← eatMark "*"
  if ← atFreeName then advance
  .function <$> g.functionRest isAsync isGenerator (some <$> g.blockBody)

end Grammar

end ComponentSchema.Syntax
