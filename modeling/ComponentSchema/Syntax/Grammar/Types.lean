import ComponentSchema.Syntax.Grammar

/-!
# Types

Readers of type expressions, type parameters and type arguments, and of the members of interfaces
and type literals.
-/
namespace ComponentSchema.Syntax

open Parse

namespace Grammar

variable (g : Grammar)

/-- `A.B.C`, after its first name. -/
def qualifiers (first : EntityName) : Parse EntityName := do
  let names ← many (do if ← eatMark "." then some <$> anyWord else pure none) g.bound
  pure (names.foldl EntityName.qualified first)

/-- A possibly qualified name. -/
def entityName : Parse EntityName := do
  let first ← anyWord
  g.qualifiers (.ident first)

/-- The types between `<` and `>`; there may be none. -/
def typeArguments : Parse Unit := do
  expectMark "<"
  let _ ← commaList ">" g.type g.bound

/-- Type arguments on the same line, if there are any. -/
def maybeTypeArguments : Parse Unit := do
  if (← atMark "<") && !(← atNewline) then g.typeArguments

/-- A type parameter with its modifiers, bound and default. -/
def typeParameter : Parse Unit := do
  let _ ← many (do
    let isModifier := (← atWord "const") || (← atWord "in") || (← atWord "out")
    let modifies ← ahead (do advance; return (← atName) || (← atWord "in"))
    if isModifier && modifies then advance; pure (some ()) else pure none) g.bound
  let _ ← anyWord
  if ← eatWord "extends" then
    let _ ← g.type
  if ← eatMark "=" then
    let _ ← g.type

/-- The type parameters between `<` and `>`; there may be none. -/
def typeParameters : Parse Unit := do
  expectMark "<"
  let _ ← commaList ">" g.typeParameter g.bound

/-- Type parameters, if there are any. -/
def maybeTypeParameters : Parse Unit := do
  if ← atMark "<" then g.typeParameters

/-- `: T`, if there is one. -/
def maybeColonType : Parse (Option TypeExpr) := do
  if ← eatMark ":" then some <$> g.type else pure none

/-- A return type: a type or a predicate such as `x is T` or `asserts x`. -/
def returnType : Parse TypeExpr := do
  let asserts ← ahead (do
    expectWord "asserts"
    return ((← atFreeName) || (← atWord "this")) && !(← atNewline))
  if asserts then advance
  let isPredicate ← ahead (do
    if !((← atFreeName) || (← atWord "this")) then fail "a name"
    advance
    return (← atWord "is") && !(← atNewline))
  if isPredicate then
    advance
    advance
    let _ ← g.type
    pure .other
  else if asserts then
    advance
    pure .other
  else g.type

/-- `: R` after a parameter list, if there is one. -/
def maybeReturnType : Parse (Option TypeExpr) := do
  if ← eatMark ":" then some <$> g.returnType else pure none

/-! ## Parameters of types -/

/-- A parameter of a function type or a method signature; a default value is not allowed. -/
def signatureParameter : Parse TypeParameter := do
  let _ ← eatMark "..."
  let name ← g.binding
  let _ ← eatMark "?"
  let type ← g.maybeColonType
  pure ⟨name, type⟩

/-- The parameters of a function type or a method signature. -/
def signatureParameters : Parse (List TypeParameter) := do
  expectMark "("
  commaList ")" g.signatureParameter g.bound

/-! ## Members -/

/-- The key of a member. Whether it is computed shows only on a name. -/
def propertyKey : Parse PropertyKey := do
  if ← eatMark "[" then
    let key ← g.assignment Place.free
    expectMark "]"
    match key with
    | .string value => pure (.string value)
    | .number value => pure (.number value)
    | _ => pure .computed
  else
    match ← kind with
    | .word name _ => advance; pure (.identifier name)
    | .string value => advance; pure (.string value)
    | .number value => advance; pure (.number value)
    | .bigint => advance; pure .computed
    | _ => fail "a key"

/-- The end of a member: a comma or the end of a statement. -/
def endMember : Parse Unit := do
  if !(← eatMark ",") then endStatement

/-- `readonly` in front of something it can stand in front of. -/
def eatReadonly : Parse Unit := do
  let modifies ← ahead (do
    expectWord "readonly"
    if ← atNewline then pure false
    else
      match ← kind with
      | .word .. | .string _ | .number _ | .bigint | .privateName => pure true
      | .mark text => return text == "[" || text == "\x7b" || text == "*" || text == "..."
      | _ => pure false)
  if modifies then advance

/-- Whether `[name:` is next. -/
def atIndexSignature : Parse Bool :=
  ahead (do
    expectMark "["
    let _ ← freeName
    atMark ":")

/-- The rest of `[name: K]: V`. -/
def indexSignature : Parse Unit := do
  expectMark "["
  let _ ← anyWord
  expectMark ":"
  let _ ← g.type
  expectMark "]"
  let _ ← g.maybeColonType

/-- `get a(): A` or `set a(v: A)`. -/
def accessorSignature : Parse TypeMember := do
  if ← eatWord "get" then
    let key ← g.propertyKey
    expectMark "("
    expectMark ")"
    let type ← g.maybeColonType
    endMember
    pure (.getter key type)
  else
    expectWord "set"
    let _ ← g.propertyKey
    let parameters ← g.signatureParameters
    if parameters.isEmpty then fail "a parameter"
    endMember
    pure .other

/-- A call signature from its parameters on. -/
def callSignature : Parse TypeMember := do
  g.maybeTypeParameters
  let _ ← g.signatureParameters
  let _ ← g.maybeReturnType
  endMember
  pure .other

/-- A property or method signature. -/
def memberSignature : Parse TypeMember := do
  let key ← g.propertyKey
  let optional ← eatMark "?"
  if (← atMark "(") || (← atMark "<") then
    let _ ← g.callSignature
    pure (.method key optional)
  else
    let type ← g.maybeColonType
    endMember
    pure (.property key optional type)

/-- A member of an interface or a type literal. -/
def typeMember : Parse TypeMember := do
  if (← atMark "(") || (← atMark "<") then g.callSignature
  else if ← ahead (do expectWord "new"; return (← atMark "(") || (← atMark "<")) then
    advance
    g.callSignature
  else
    eatReadonly
    if ← atIndexSignature then
      g.indexSignature
      endMember
      pure .other
    else
      match ← tried g.accessorSignature with
      | some member => pure member
      | none => g.memberSignature

/-- The members between braces. -/
def typeMembers : Parse (List TypeMember) := do
  expectMark "\x7b"
  let members ← many (do
    if ← atMark "\x7d" then pure none else some <$> g.typeMember) g.bound
  expectMark "\x7d"
  pure members

/-! ## Types -/

/-- Whether `(` opens the parameters of a function type. -/
def atFunctionType : Parse Bool :=
  ahead (do
    expectMark "("
    if (← atMark ")") || (← atMark "...") then pure true
    else
      let bound ← tried g.binding
      if bound.isNone then pure false
      else if (← atMark ":") || (← atMark ",") || (← atMark "?") || (← atMark "=") then pure true
      else if ← eatMark ")" then atMark "=>"
      else pure false)

/-- `<T>(a: A) => R`. -/
def functionType : Parse TypeExpr := do
  g.maybeTypeParameters
  let parameters ← g.signatureParameters
  expectMark "=>"
  let result ← g.returnType
  pure (.function parameters result)

/-- Moves past a sign in front of a modifier, if it is next. -/
def eatSign : Parse Bool := do
  if ← eatMark "+" then pure true else eatMark "-"

/-- Whether the braces of a mapped type open here. -/
def atMappedType : Parse Bool :=
  ahead (do
    expectMark "\x7b"
    if ← eatSign then atWord "readonly"
    else
      let _ ← eatWord "readonly"
      expectMark "["
      let _ ← anyWord
      atWord "in")

/-- `{ readonly [K in T as U]?: V }`. -/
def mappedType : Parse TypeExpr := do
  expectMark "\x7b"
  if ← eatSign then expectWord "readonly"
  else
    let _ ← eatWord "readonly"
  expectMark "["
  let _ ← freeName
  expectWord "in"
  let _ ← g.type
  if ← eatWord "as" then
    let _ ← g.type
  expectMark "]"
  if ← eatSign then expectMark "?"
  else
    let _ ← eatMark "?"
  let _ ← g.maybeColonType
  let _ ← eatMark ";"
  let _ ← eatMark ","
  expectMark "\x7d"
  pure .other

/-- An element of a tuple type. -/
def tupleElement : Parse Unit := do
  let _ ← eatMark "..."
  let labeled ← ahead (do
    let _ ← anyWord
    let _ ← eatMark "?"
    atMark ":")
  if labeled then
    advance
    let _ ← eatMark "?"
    expectMark ":"
  let _ ← g.type
  let _ ← eatMark "?"

/-- The parts between the chunks of a template, from its opening quote on. Unless `anyEscape`, the
chunks hold no escape that stands for nothing. -/
def templateParts {α : Type} (anyEscape : Bool) (part : Parse α) : Parse (List α) := do
  let step : Parse (Option α) := do
    let text := (← get).rest
    match scanTemplate text with
    | none => fail "the end of a template"
    | some (closed, after) =>
      if !anyEscape && !escapesStandForCharacters (text.take (text.length - after.length)) then
        fail "a character"
      if closed then
        set (Cursor.following (.string ⟨"", none⟩) after)
        pure none
      else
        set (Cursor.following (.mark "\x7b") after)
        let found ← part
        if ← atMark "\x7d" then pure (some found) else fail "\x7d"
  if ← atMark "\x60" then many step g.bound else fail "a template"

/-- `import("m").A<T>`, after `import`. -/
def importType : Parse TypeExpr := do
  expectMark "("
  let _ ← g.type
  if ← eatMark "," then
    let _ ← g.assignment Place.free
    let _ ← eatMark ","
  expectMark ")"
  let _ ← g.qualifiers (.ident "")
  g.maybeTypeArguments
  pure .other

/-- `typeof a.b<T>`, after `typeof`. -/
def typeQuery : Parse TypeExpr := do
  if ← eatWord "import" then g.importType
  else
    let _ ← g.entityName
    g.maybeTypeArguments
    pure .other

/-- Whether a type reference may start with a word. -/
def isTypeName (word : String) : Bool :=
  if reservedWords.contains word then ["void", "null", "enum", "break"].contains word else word != "let"

/-- A type that starts with a word. -/
def wordType (word : String) : Parse TypeExpr := do
  if word == "this" then
    advance
    if (← atWord "is") && !(← atNewline) then
      advance
      let _ ← g.type
      pure .other
    else pure .other
  else if word == "typeof" then advance; g.typeQuery
  else if word == "import" then advance; g.importType
  else if word == "true" || word == "false" then advance; pure .other
  else if isTypeName word then
    let dotted ← ahead (do advance; atMark ".")
    match KeywordType.ofText? word, dotted with
    | some keyword, false => advance; pure (.keyword keyword)
    | _, _ =>
      let name ← g.entityName
      g.maybeTypeArguments
      pure (.reference name)
  else fail "a type"

/-- A type that no operator and no bracket is part of from outside. -/
def primaryType : Parse TypeExpr := do
  match ← kind with
  | .word word _ => g.wordType word
  | .string _ | .number _ | .bigint => advance; pure .other
  | .mark "-" =>
    advance
    match ← kind with
    | .number _ | .bigint => advance; pure .other
    | _ => fail "a number"
  | .mark "\x7b" =>
    if ← atMappedType then g.mappedType else .literal <$> g.typeMembers
  | .mark "[" =>
    advance
    let _ ← commaList "]" g.tupleElement g.bound
    pure .other
  | .mark "(" =>
    advance
    let inner ← g.type
    expectMark ")"
    pure (.parenthesized inner)
  | .mark "\x60" =>
    let _ ← g.templateParts true g.type
    pure .other
  | _ => fail "a type"

/-- A type with the brackets after it: `T[]`, `T[K]`. -/
def bracketedType : Parse TypeExpr := do
  let inner ← g.primaryType
  let brackets ← many (do
    if ← atNewline then pure none
    else if !(← eatMark "[") then pure none
    else
      if !(← eatMark "]") then
        let _ ← g.type
        expectMark "]"
      pure (some ())) g.bound
  pure (if brackets.isEmpty then inner else .other)

/-- A type with the operators before it. Where no conditional type may stand, a question mark after
the bound of an inferred type does not make one of that bound. -/
def operatorType (conditions : Bool) : Parse TypeExpr := do
  if (← atWord "keyof") || (← atWord "unique") || (← atWord "readonly") then
    advance
    let _ ← g.operandType
    pure .other
  else if ← eatWord "infer" then
    let _ ← anyWord
    let _ ← tried (do
      expectWord "extends"
      let _ ← g.operandType
      if conditions && (← atMark "?") then fail "no question mark")
    pure .other
  else g.bracketedType

/-- Parts joined by an operator, which may also stand in front of the first. A single part is the
type itself. -/
def joinedType (mark : String) (join : List TypeExpr → TypeExpr) (part : Parse TypeExpr) :
    Parse TypeExpr := do
  let _ ← eatMark mark
  match ← separated mark part g.bound with
  | [single] => pure single
  | parts => pure (join parts)

/-- A union of intersections. -/
def unionType (conditions : Bool) : Parse TypeExpr :=
  g.joinedType "|" .union (g.joinedType "&" .intersection (g.operatorType conditions))

/-- A type other than a conditional type; `conditions` tells whether one may stand here. -/
def plainType (conditions : Bool) : Parse TypeExpr := do
  if (← atMark "<") || (← g.atFunctionType) then g.functionType
  else
    let constructs ← ahead (do
      let _ ← eatWord "abstract"
      atWord "new")
    if constructs then
      let _ ← eatWord "abstract"
      expectWord "new"
      let _ ← g.functionType
      pure .constructor
    else g.unionType conditions

/-- A type. -/
def typeRule : Parse TypeExpr := do
  let checked ← g.plainType true
  if ← atNewline then pure checked
  else if !(← eatWord "extends") then pure checked
  else
    let _ ← g.plainType false
    expectMark "?"
    let _ ← g.type
    expectMark ":"
    let _ ← g.type
    pure .other

/-- Where the parts that `joinedType` reads start: an operator in front of a single part is no part
of the type. -/
def joinedStart (mark : String) (partStart : Parse (List Char)) : Parse (List Char) := do
  let start := (← token).origin
  let _ ← eatMark mark
  match ← separated mark partStart g.bound with
  | [single] => pure single
  | _ => pure start

/-- Where the type at the cursor starts. -/
def typeStart : Parse (List Char) := do
  let start := (← token).origin
  if (← atMark "|") || (← atMark "&") then
    let operandStart : Parse (List Char) := do
      let start := (← token).origin
      let _ ← g.operatorType true
      pure start
    let single ← g.joinedStart "|" (g.joinedStart "&" operandStart)
    if !(← atNewline) && (← atWord "extends") then pure start else pure single
  else pure start

end Grammar

end ComponentSchema.Syntax
