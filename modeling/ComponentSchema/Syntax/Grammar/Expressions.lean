import ComponentSchema.Syntax.Grammar.Classes

/-!
# Expressions

Readers of expressions. Binary operators are read as a flat list of operands, which
`Operators.assemble` nests by precedence.
-/
namespace ComponentSchema.Syntax

open Parse

/-! ## Operators -/

/-- What an operator makes of its operands. -/
inductive OperatorKind where
  | logicalAnd
  | alternative
  | other
  deriving DecidableEq, Repr, Inhabited

/-- A binary operator; the higher precedence binds tighter. -/
structure Operator where
  precedence : Nat
  kind : OperatorKind
  deriving DecidableEq, Repr, Inhabited

/-- What follows an operand. -/
inductive OperatorStep where
  | binary (operator : Operator) (right : Expr)
  /-- `as T`. -/
  | cast (type : TypeExpr)
  /-- `as const`. -/
  | constCast
  /-- `satisfies T`. -/
  | satisfies

namespace Operators

/-- The precedence of relations, which `as` and `satisfies` share. -/
def relational : Nat := 7

/-- The operator that an operator token starts with, and its number of characters. Operators that
start with `<` or `>` are read from the text. -/
def ofMark? (mark : String) (text : List Char) : Option (Operator × Nat) :=
  let other (precedence length : Nat) : Option (Operator × Nat) :=
    some (⟨precedence, .other⟩, length)
  match mark with
  | "||" => some (⟨1, .alternative⟩, 2)
  | "??" => some (⟨1, .alternative⟩, 2)
  | "&&" => some (⟨2, .logicalAnd⟩, 2)
  | "|" => other 3 1
  | "^" => other 4 1
  | "&" => other 5 1
  | "==" | "!=" => other 6 2
  | "===" | "!==" => other 6 3
  | "+" | "-" => other 9 1
  | "*" | "/" | "%" => other 10 1
  | "**" => other 11 2
  | "<" =>
    match text with
    | '<' :: '<' :: '=' :: _ => none
    | '<' :: '<' :: _ => other 8 2
    | '<' :: '=' :: _ => other relational 2
    | _ => other relational 1
  | ">" =>
    match text with
    | '>' :: '>' :: '>' :: '=' :: _ => none
    | '>' :: '>' :: '>' :: _ => other 8 3
    | '>' :: '>' :: '=' :: _ => none
    | '>' :: '>' :: _ => other 8 2
    | '>' :: '=' :: _ => other relational 2
    | _ => other relational 1
  | _ => none

/-- The number of characters of the assignment operator at the start of a text. -/
def assignmentLength? (mark : String) (text : List Char) : Option Nat :=
  match mark, text with
  | "<", '<' :: '<' :: '=' :: _ => some 3
  | ">", '>' :: '>' :: '>' :: '=' :: _ => some 4
  | ">", '>' :: '>' :: '=' :: _ => some 3
  | "=", _ => some 1
  | "**=", _ | "&&=", _ | "||=", _ | "??=", _ => some 3
  | "+=", _ | "-=", _ | "*=", _ | "/=", _ | "%=", _ | "&=", _ | "|=", _ | "^=", _ => some 2
  | _, _ => none

/-- An operator applied to its operands. -/
def apply (operator : OperatorKind) (left right : Expr) : Expr :=
  match operator with
  | .logicalAnd => .logicalAnd left right
  | .alternative => .alternative left right
  | .other => .other [left, right]

/-- Closes the pending operators, innermost first, that bind at least as tightly as `precedence`. -/
def close (precedence : Nat) :
    List (Operator × Expr) → Expr → List (Operator × Expr) × Expr
  | [], right => ([], right)
  | (operator, left) :: pending, right =>
    if operator.precedence ≥ precedence then
      close precedence pending (apply operator.kind left right)
    else ((operator, left) :: pending, right)

/-- Nests a flat list of operands, given the operators that are still waiting for their right
operand. -/
def assembleWith (pending : List (Operator × Expr)) (operand : Expr) : List OperatorStep → Expr
  | [] => (close 0 pending operand).2
  | .binary operator right :: rest =>
    let (pending, left) := close operator.precedence pending operand
    assembleWith ((operator, left) :: pending) right rest
  | .cast type :: rest =>
    let (pending, left) := close relational pending operand
    assembleWith pending (.cast left type) rest
  | .constCast :: rest =>
    let (pending, left) := close relational pending operand
    assembleWith pending (.constCast left) rest
  | .satisfies :: rest =>
    let (pending, left) := close relational pending operand
    assembleWith pending (.satisfies left) rest

/-- Nests a flat list of operands by precedence; equal precedence nests to the left. -/
def assemble (first : Expr) (steps : List OperatorStep) : Expr :=
  assembleWith [] first steps

end Operators

namespace Grammar

variable (g : Grammar)

/-! ## Primary expressions -/

/-- Expressions with commas between them, as one. -/
def expression (place : Place) : Parse Expr := do
  match ← separated "," (g.assignment place) g.bound with
  | [single] => pure single
  | parts => pure (.other parts)

/-- What stands between parentheses; a comma may come last. -/
def expressionInside : Parse Expr := do
  let first ← g.assignment Place.free
  let others ← many (do
    if (← eatMark ",") && !(← atMark ")") then some <$> g.assignment Place.free else pure none) g.bound
  pure (if others.isEmpty then first else .other (first :: others))

/-- An argument of a call or an element of an array. -/
def spreadable : Parse Expr := do
  let _ ← eatMark "..."
  g.assignment Place.free

/-- The arguments between parentheses. -/
def arguments : Parse (List Expr) := do
  expectMark "("
  commaList ")" g.spreadable g.bound

/-- An element of an array, which may be missing. -/
def arrayElement : Parse (List Expr) := do
  if ← atMark "," then pure [] else return [← g.spreadable]

/-- The key of a property, with the expression it is computed by. -/
def objectKey : Parse (List Expr) := do
  if ← eatMark "[" then
    let key ← g.assignment Place.free
    expectMark "]"
    pure [key]
  else
    let _ ← g.propertyKey
    pure []

/-- Whether the modifier `word` stands before a key, and is not itself one. -/
def atKeyModifier (word : String) : Parse Bool :=
  ahead (do
    expectWord word
    match ← kind with
    | .word .. | .string _ | .number _ | .bigint | .privateName => pure true
    | .mark text => return text == "[" || text == "*"
    | _ => pure false)

/-- A property of an object literal: its parts. -/
structure Property where
  isMethod : Bool
  parts : List Expr

/-- A property of an object literal. -/
def objectProperty : Parse Property := do
  if ← eatMark "..." then return ⟨false, [← g.assignment Place.free]⟩
  else if (← atKeyModifier "get") || (← atKeyModifier "set") then
    advance
    let key ← g.objectKey
    let function ← g.functionRest false false (some <$> g.blockBody)
    pure ⟨true, key ++ [.function function]⟩
  else
    let isAsync ← atKeyModifier "async"
    if isAsync then advance
    let isGenerator ← eatMark "*"
    let shorthand ← atAnyWord
    let key ← g.objectKey
    if isAsync || isGenerator || (← atMark "(") || (← atMark "<") then
      let function ← g.functionRest isAsync isGenerator (some <$> g.blockBody)
      pure ⟨true, key ++ [.function function]⟩
    else if ← eatMark ":" then return ⟨false, key ++ [← g.assignment Place.free]⟩
    else if shorthand then return ⟨false, (← g.maybeDefault).toList⟩
    else fail ":"

/-- An object literal after its opening brace. -/
def objectRest : Parse Expr := do
  let properties ← commaList "\x7d" g.objectProperty g.bound
  let parts := properties.flatMap (·.parts)
  pure (if properties.any (·.isMethod) then .other parts else .collection parts)

/-- A template from its opening quote on. -/
def template (tagged : Bool) : Parse Expr :=
  .template <$> g.templateParts tagged (g.expression Place.free)

/-- A regular expression from its opening slash on. -/
def regex : Parse Expr := do
  match scanRegex false ((← token).origin.drop 1) with
  | none => fail "the end of a regular expression"
  | some rest =>
    modify fun _ => Cursor.following (.string ⟨"", none⟩) (rest.dropWhile Text.isIdentifierPart)
    pure (.other [])

/-- A JSX element or fragment where an expression may start. -/
def jsxExpr : Parse Expr := do
  let parts ← g.element
  expectMark ">"
  pure (.jsx parts)

/-- The expression after `new`: `new.target`, or a construction with its arguments. -/
def newExpr : Parse Expr := do
  if ← eatMark "." then
    expectWord "target"
    pure (.other [])
  else
    let callee ← g.leftSide false
    if ← atMark "<" then
      let _ ← tried g.typeArguments
    let arguments ← if ← atMark "(" then g.arguments else pure []
    pure (.other (callee :: arguments))

/-- An expression that starts with a word. -/
def wordExpr (word : String) : Parse Expr := do
  match word with
  | "null" => advance; pure .null
  | "true" | "false" => advance; pure .boolean
  | "this" => advance; pure (.other [])
  | "super" =>
    advance
    if (← atMark "(") || (← atMark ".") || (← atMark "[") then pure (.other []) else fail "."
  | "function" => g.functionExpr
  | "class" => advance; .classExpr <$> g.classExprRest
  | "new" => advance; g.newExpr
  | "import" =>
    advance
    if ← eatMark "." then
      expectWord "meta"
      pure (.other [])
    else if ← atMark "(" then pure (.other [])
    else fail "an expression"
  | _ =>
    if ← atAsyncFunction then g.functionExpr else .identifier <$> reference

/-- An expression that no operator is part of. -/
def primary : Parse Expr := do
  match ← kind with
  | .word word true => g.wordExpr word
  | .word _ false => .identifier <$> reference
  | .string value => advance; pure (.string value)
  | .number value => advance; pure (.number value)
  | .bigint | .privateName => advance; pure (.other [])
  | .mark "(" =>
    advance
    let inner ← g.expressionInside
    expectMark ")"
    pure (.parenthesized inner)
  | .mark "[" =>
    advance
    let parts ← commaList "]" g.arrayElement g.bound
    pure (.collection parts.flatten)
  | .mark "\x7b" => advance; g.objectRest
  | .mark "\x60" => g.template false
  | .mark "/" | .mark "/=" => regex
  | .mark "<" => if g.tsx then g.jsxExpr else fail "an expression"
  | _ => fail "an expression"

/-! ## Calls and member accesses -/

/-- Marks after which `a < b > c` is a pair of comparisons. -/
def operandMarks : List String := ["(", "[", "\x60", "\x7b", "<", ">", "+", "-", "!", "~", "/"]

/-- Whether a list of type arguments may end before the next token, which then goes on with
something other than an operand, and is not part of `>=`. -/
def atEndOfTypeArguments : Parse Bool := do
  if (← get).behind.head? == some '=' then pure false
  else if ← atNewline then pure true
  else
    match ← kind with
    | .mark text => return !operandMarks.contains text
    | .endOfText => pure true
    | _ => pure false

/-- Moves past the `?.` of an optional chain, which blanks may part in two. -/
def eatOptional : Parse Bool := do
  if ← eatMark "?." then pure true
  else if ← ahead (do expectMark "?"; atMark ".") then advance; advance; pure true
  else pure false

/-- What stands after `?.` in an optional chain. -/
def optionalAccess (operand : Expr) : Parse Expr := do
  if ← atMark "<" then
    g.typeArguments
    return .access (operand :: (← g.arguments))
  else if ← atMark "(" then return .access (operand :: (← g.arguments))
  else if ← eatMark "[" then
    let index ← g.expression Place.free
    expectMark "]"
    pure (.access [operand, index])
  else
    if (← kind) == .privateName then advance
    else
      let _ ← anyWord
    pure (.access [operand])

/-- One access or call after `operand`, if there is one. -/
def accessStep (calls : Bool) (operand : Expr) : Parse (Option Expr) := do
  match ← kind with
  | .mark "." =>
    advance
    if (← kind) == .privateName then advance
    else
      let _ ← anyWord
    pure (some (.access [operand]))
  | .mark "?." | .mark "?" =>
    if !(← eatOptional) then pure none
    else if calls then some <$> g.optionalAccess operand
    else fail "no optional chain"
  | .mark "[" =>
    advance
    let index ← g.expression Place.free
    expectMark "]"
    pure (some (.access [operand, index]))
  | .mark "!" =>
    if ← atNewline then pure none
    else
      advance
      pure (some (.nonNull operand))
  | .mark "(" => if calls then return some (.other (operand :: (← g.arguments))) else pure none
  | .mark "\x60" => return some (.other [operand, ← g.template true])
  | .mark "<" =>
    let applied ← tried (do
      g.typeArguments
      if (← atMark "(") then
        if calls then return .other (operand :: (← g.arguments)) else fail "no call"
      else if ← atMark "\x60" then return .other [operand, ← g.template true]
      else if ← atEndOfTypeArguments then pure (.other [operand])
      else fail "the end of type arguments")
    pure applied
  | _ => pure none

/-- The accesses and calls after `operand`. -/
def accesses (calls : Bool) : Nat → Expr → Parse Expr
  | 0, _ => fail "fewer accesses"
  | bound + 1, operand => do
    match ← g.accessStep calls operand with
    | some longer => accesses calls bound longer
    | none => pure operand

/-- An expression with the calls and member accesses after it. -/
def leftSideRule (calls : Bool) : Parse Expr := do
  let first ← g.primary
  g.accesses calls g.bound first

/-! ## Operands and operators -/

/-- `<T>operand` in a text without JSX. -/
def assertion (place : Place) : Parse Expr := do
  let isConst ← ahead (do expectMark "<"; expectWord "const"; atMark ">")
  if isConst then
    advance
    advance
    advance
    .constCast <$> g.unary place
  else
    expectMark "<"
    let type ← g.type
    expectMark ">"
    return .cast (← g.unary place) type

/-- Words that are operators before an operand. -/
def wordOperators : List String := ["delete", "typeof", "await"]

/-- Marks that are operators before an operand. -/
def markOperators : List String := ["+", "-", "!", "~", "++", "--"]

/-- An operand that no operator stands before; `++` or `--` may stand after it. -/
def postfixed : Parse Expr := do
  let operand ← g.leftSideRule true
  if ((← atMark "++") || (← atMark "--")) && !(← atNewline) then
    advance
    pure (.other [operand])
  else pure operand

/-- An operand of a binary operator. -/
def unaryRule (place : Place) : Parse Expr := do
  match ← kind with
  | .word "void" true => advance; .void <$> g.unary place
  | .word word true =>
    if wordOperators.contains word then
      advance
      return .other [← g.unary place]
    else g.postfixed
  | .mark "<" => if g.tsx then g.postfixed else g.assertion place
  | .mark text =>
    if markOperators.contains text then
      advance
      return .other [← g.unary place]
    else g.postfixed
  | _ => g.postfixed

/-- Whether an operator stands before the operand, other than `++` and `--`. -/
def atOperandOperator : Parse Bool := do
  match ← kind with
  | .word word true => return word == "void" || wordOperators.contains word
  | .mark text => return ["+", "-", "!", "~"].contains text
  | _ => pure false

/-- An operand of a binary operator. One that an operator stands before is the base of no power. -/
def operand (place : Place) : Parse Expr := do
  let isOperation ← atOperandOperator
  let value ← g.unaryRule place
  if isOperation && (← atMark "**") then fail "parentheses"
  pure value

/-- The operator after an operand, with its right operand. -/
def operatorStep (place : Place) : Parse (Option OperatorStep) := do
  match ← kind with
  | .word "in" true =>
    if place.allowIn then
      advance
      return some (.binary ⟨Operators.relational, .other⟩ (← g.operand place))
    else pure none
  | .word "instanceof" true =>
    advance
    return some (.binary ⟨Operators.relational, .other⟩ (← g.operand place))
  | .word "as" true =>
    if ← atNewline then pure none
    else
      advance
      if ← eatWord "const" then pure (some .constCast) else return some (.cast (← g.type))
  | .word "satisfies" true =>
    if ← atNewline then pure none
    else
      advance
      let _ ← g.type
      pure (some .satisfies)
  | .mark text =>
    match Operators.ofMark? text (← token).origin with
    | some (operator, length) =>
      advancePast (.mark text) length
      return some (.binary operator (← g.operand place))
    | none => pure none
  | _ => pure none

/-- Operands joined by binary operators. -/
def binary (place : Place) : Parse Expr := do
  let first ← g.operand place
  let steps ← many (g.operatorStep place) g.bound
  pure (Operators.assemble first steps)

/-- An expression with the conditional operator or an assignment after it. -/
def conditional (place : Place) : Parse Expr := do
  let left ← g.binary place
  if ← eatMark "?" then
    let consequent ← g.assignment ⟨true, true⟩
    expectMark ":"
    let alternate ← g.assignment place
    pure (.conditional left consequent alternate)
  else
    match ← kind with
    | .mark text =>
      match Operators.assignmentLength? text (← token).origin with
      | some length =>
        if !left.isTarget (text == "=") then fail "a target"
        advancePast (.mark text) length
        return .other [left, ← g.assignment place]
      | none => pure left
    | _ => pure left

/-! ## Arrow functions -/

/-- What an arrow function starts with, up to `=>`: whether it is async, its parameters and its
return type. -/
structure ArrowHead where
  isAsync : Bool
  parameters : List Parameter
  returnType : Option TypeExpr

/-- Reads `=>` on the same line. -/
def expectArrow : Parse Unit := do
  if ← atNewline then fail "=>" else expectMark "=>"

/-- Names that no parameter of an arrow function has. -/
def isBoundByNoArrow (name : String) : Bool := name == "this" || moduleWords.contains name

/-- `(a: A): R =>`, with type parameters and `async` in front; `typed` tells whether `: R` is
read. -/
def arrowHead (typed : Bool) : Parse ArrowHead := do
  let isAsync ← ahead (do
    expectWord "async"
    return ((← atMark "(") || (← atMark "<")) && !(← atNewline))
  if isAsync then advance
  g.maybeTypeParameters
  let parameters ← g.parameters
  let returnType ← if typed then g.maybeReturnType else pure none
  expectArrow
  if parameters.any fun parameter => parameter.name.any isBoundByNoArrow then fail "a name"
  pure ⟨isAsync, parameters, returnType⟩

/-- `a =>`, with `async` in front. -/
def shortArrowHead : Parse ArrowHead := do
  let isAsync ← ahead (do
    expectWord "async"
    return (← atFreeName) && !(← atNewline))
  if isAsync then
    let isArrow ← ahead (do advance; advance; atMark "=>")
    if isArrow then advance
    let parameter ← freeName
    expectArrow
    pure ⟨isArrow, [⟨some parameter, none, none⟩], none⟩
  else
    let parameter ← freeName
    expectArrow
    pure ⟨false, [⟨some parameter, none, none⟩], none⟩

/-- An arrow function from its body on. -/
def arrowRest (place : Place) (head : ArrowHead) : Parse Expr := do
  let body ← if ← atMark "\x7b" then g.blockBody else .expression <$> g.assignment place
  pure (.arrow ⟨head.parameters, head.returnType, some body, head.isAsync, false⟩)

/-- Whether an arrow function with parentheses may start here. -/
def atArrowStart : Parse Bool := do
  match ← kind with
  | .mark text => return text == "(" || text == "<"
  | .word "async" true => ahead (do advance; return (← atMark "(") || (← atMark "<"))
  | _ => pure false

/-- `yield`, with its operand if there is one. -/
def yieldExpr (place : Place) : Parse Expr := do
  expectWord "yield"
  let _ ← eatMark "*"
  let ends :=
    match ← kind with
    | .mark text => [")", "]", "\x7d", ",", ";", ":"].contains text
    | .endOfText => true
    | _ => false
  if ends || (← atNewline) then pure (.other []) else return .other [← g.assignment place]

/-- An arrow function with a return type between `?` and `:`. The colon of the conditional has to
follow it; otherwise what looks like the return type is part of the other branch. -/
def typedArrowInBranch (place : Place) : Parse Expr := do
  let head ← g.arrowHead true
  let arrow ← g.arrowRest place head
  if ← atMark ":" then pure arrow else fail ":"

/-- An arrow function, if there is one. -/
def maybeArrow (place : Place) : Parse (Option Expr) := do
  if ← atArrowStart then
    let typed ← if place.inBranch then tried (g.typedArrowInBranch place) else pure none
    match typed with
    | some arrow => pure (some arrow)
    | none =>
      match ← tried (g.arrowHead !place.inBranch) with
      | some head => some <$> g.arrowRest place head
      | none => pure none
  else if ← atFreeName then
    match ← tried shortArrowHead with
    | some head => some <$> g.arrowRest place head
    | none => pure none
  else pure none

/-- An expression without a comma outside of brackets. -/
def assignmentRule (place : Place) : Parse Expr := do
  if ← atWord "yield" then g.yieldExpr place
  else
    match ← g.maybeArrow place with
    | some arrow => pure arrow
    | none => g.conditional place

end Grammar

end ComponentSchema.Syntax
