import ComponentSchema.Syntax.Grammar.Functions

/-!
# Classes

Readers of class bodies and of what stands between the name of a class and its body.
-/
namespace ComponentSchema.Syntax

open Parse

namespace Grammar

variable (g : Grammar)

/-- Modifiers of a member. -/
def memberModifiers : List String := ["declare", "public", "private", "protected", "static", "abstract",
  "override", "readonly", "accessor", "async"]

/-- Whether a key can start at the next token. -/
def atKey : Parse Bool := do
  match ← kind with
  | .word .. | .string _ | .number _ | .bigint | .privateName => pure true
  | .mark text => return text == "["
  | _ => pure false

/-- Modifiers after which no line may end. -/
def inlineModifiers : List String := ["declare", "accessor", "async"]

/-- The modifier in front of a member, if there is one; `star` tells whether `*` may follow it. -/
def eatModifier (star : Bool) (modifiers : List String) : Parse (Option String) := do
  match ← kind with
  | .word word true =>
    if !modifiers.contains word then pure none
    else
      let modifies ← ahead (do
        advance
        if (← atNewline) && inlineModifiers.contains word then pure false
        else return (← atKey) || (star && (← atMark "*")))
      if modifies then advance; pure (some word) else pure none
  | _ => pure none

/-- The key of a member, which may be a private name. -/
def memberKey : Parse PropertyKey := do
  if (← kind) == .privateName then advance; pure .computed else g.propertyKey

/-- Whether a key names the constructor. -/
def isConstructorKey : PropertyKey → Bool
  | .identifier name => name == "constructor"
  | .string value => value.lossy == "constructor"
  | _ => false

/-- A constructor from its parameters on. -/
def constructorRest : Parse Function := do
  g.maybeTypeParameters
  expectMark "("
  let parameters ← commaList ")" g.constructorParameter g.bound
  let _ ← g.maybeReturnType
  let body ← g.maybeBody
  pure ⟨parameters, none, body, false, false⟩

/-- A member from its key on. -/
def keyedMember (leading : List Comment) (modifiers : List String) : Parse ClassMember := do
  let isGenerator ← eatMark "*"
  let accessor ← eatModifier false ["get", "set"]
  let bracketed ← atMark "["
  let key ← g.memberKey
  let definite ← if ← eatMark "?" then pure false else eatMark "!"
  let isAsync := modifiers.contains "async"
  if !definite && ((← atMark "(") || (← atMark "<")) then
    let plain := !bracketed && !isAsync && !isGenerator && accessor.isNone &&
      !modifiers.contains "static"
    if plain && isConstructorKey key then .constructor leading <$> g.constructorRest
    else .method <$> g.functionRest isAsync isGenerator g.maybeBody
  else
    if accessor.isSome || (!bracketed && isConstructorKey key) then fail "("
    let _ ← g.maybeColonType
    let value ← g.maybeDefault
    endStatement
    pure (.field value)

/-- A member of a class. -/
def classMember : Parse ClassMember := do
  if ← eatMark ";" then pure .other
  else
    let leading := (← token).leading
    let isStaticBlock ← ahead (do expectWord "static"; atMark "\x7b")
    if isStaticBlock then
      advance
      return .staticBlock (.block (← g.statements))
    else
      let modifiers ← many (eatModifier true memberModifiers) g.bound
      if ← atIndexSignature then
        g.indexSignature
        endStatement
        pure .other
      else g.keyedMember leading modifiers

/-- The members between braces. -/
def classMembers : Parse (List ClassMember) := do
  expectMark "\x7b"
  let members ← many (do
    if ← atMark "\x7d" then pure none else some <$> g.classMember) g.bound
  expectMark "\x7d"
  pure members

/-- The names after `implements` or after the `extends` of an interface; there may be none. -/
def heritageNames : Parse Unit := do
  if !(← atMark "\x7b") then
    let _ ← separated "," (do
      let _ ← g.entityName
      g.maybeTypeArguments) g.bound

/-- What a class extends and implements. -/
def heritage : Parse Unit := do
  if ← eatWord "extends" then
    let _ ← g.leftSide true
    g.maybeTypeArguments
  if ← eatWord "implements" then g.heritageNames

/-- A class from its type parameters on. -/
def classRest : Parse (List ClassMember) := do
  g.maybeTypeParameters
  g.heritage
  g.classMembers

/-- A class expression after `class`, with its name if it has one. -/
def classExprRest : Parse (List ClassMember) := do
  if ← atFreeName then advance
  g.classRest

end Grammar

end ComponentSchema.Syntax
