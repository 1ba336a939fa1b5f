import ComponentSchema.Syntax.Grammar.Jsx

/-!
# Declarations and statements

Readers of declarations, which stand in item lists as well as in function bodies, and of statements.
-/
namespace ComponentSchema.Syntax

open Parse

/-- A declaration in a function body, where only the functions in it matter. -/
def Decl.toStmt : Decl → Stmt
  | .function _ definition => .nestedFunction definition
  | .variables list => .variables (list.filterMap (·.value))
  | .classDecl _ members => .nestedClass members
  | _ => .other

namespace Grammar

variable (g : Grammar)

/-! ## Declarations -/

/-- Whether a word is next, with something after it that satisfies `follows`; unless `anywhere`, on
the same line. -/
def atWordThen (anywhere : Bool) (word : String) (follows : Parse Bool) : Parse Bool :=
  ahead (do
    expectWord word
    if !anywhere && (← atNewline) then pure false else follows)

/-- A declarator of a variable statement. -/
def declarator (place : Place) : Parse Declarator := do
  let name ← g.binding
  let _ ← eatMark "!"
  let type ← g.maybeColonType
  let value ← if ← eatMark "=" then some <$> g.assignment place else pure none
  pure ⟨name, type, value⟩

/-- The declarators after `var`, `let`, `const` or `using`. None but a variable is called `let`. -/
def declarators (word : String) (place : Place) : Parse (List Declarator) := do
  let list ← separated "," (g.declarator place) g.bound
  if word != "var" && list.any (·.name == some "let") then fail "another name"
  pure list

/-- Whether a declarator is a pattern without anything to take apart. -/
def isEmptyHanded (declarator : Declarator) : Bool :=
  declarator.name.isNone && declarator.value.isNone

/-- A variable statement after its first word. Only an ambient pattern stands without a value; that
a constant has one is not asked for. -/
def variablesRest (around : Surroundings) (word : String) : Parse Decl := do
  let list ← g.declarators word Place.free
  endStatement
  if word != "const" && !around.ambient && list.any isEmptyHanded then fail "a value"
  pure (.variables list)

/-- Whether `using` is next and declares a name: `using of` and `using in` do not. -/
def atUsing : Parse Bool :=
  atWordThen false "using" (do return (← atFreeName) && !(← atWord "of") && !(← atWord "in"))

/-- Moves past `using` or `await using`, if that declares a name. -/
def eatUsing : Parse Bool := do
  if ← atUsing then advance; pure true
  else if ← atWordThen false "await" atUsing then advance; advance; pure true
  else pure false

/-- A function declaration from `function` on. -/
def functionDecl (isAsync : Bool) : Parse Decl := do
  expectWord "function"
  let isGenerator ← eatMark "*"
  let name ← boundName
  .function name <$> g.functionRest isAsync isGenerator g.maybeBody

/-- A class declaration after `class`. -/
def classDeclRest : Parse Decl := do
  let name ← boundName
  if name == "let" then fail "another name"
  .classDecl name <$> g.classRest

/-- An interface after `interface`: its name and members. -/
def interfaceRest : Parse (String × List TypeMember) := do
  let name ← anyWord
  g.maybeTypeParameters
  if ← eatWord "extends" then g.heritageNames
  let members ← g.typeMembers
  pure (name, members)

/-- A type alias after `type`. -/
def typeAliasRest : Parse Decl := do
  let name ← anyWord
  g.maybeTypeParameters
  expectMark "="
  let type ← g.type
  endStatement
  pure (.typeAlias name type)

/-- An enum after `enum`. -/
def enumRest : Parse Decl := do
  let name ← anyWord
  expectMark "\x7b"
  let _ ← commaList "\x7d" (do
    let _ ← g.propertyKey
    g.maybeDefault) g.bound
  pure (.enum name)

/-- The items between the braces of a namespace. -/
def namespaceItems (ambient : Bool) : Parse NamespaceBody := do
  expectMark "\x7b"
  let items ← many (do
    if ← atMark "\x7d" then pure none else some <$> g.item ambient) g.bound
  expectMark "\x7d"
  pure (.items items)

/-- A namespace after `namespace` or `module`. -/
def namespaceRest (ambient : Bool) : Parse Decl := do
  match ← kind with
  | .string value =>
    advance
    let body ←
      if ← atMark "\x7b" then g.namespaceItems ambient
      else
        endStatement
        pure .absent
    pure (.namespaceDecl (.string value.lossy) body)
  | _ =>
    let first ← anyWord
    let others ← many (do if ← eatMark "." then some <$> anyWord else pure none) g.bound
    let body ← g.namespaceItems ambient
    pure (.namespaceDecl (.identifier first) (others.foldr .nested body))

/-- Whether the name of a namespace is next. -/
def atNamespaceName (around : Surroundings) : Parse Bool := do
  if around.anchored then atAnyWord
  else return (← atFreeName) && !(← atWord "as") && !(← atWord "satisfies")

/-- Whether a string or the name of a namespace is next. -/
def atModuleName (around : Surroundings) : Parse Bool := do
  match ← kind with
  | .string _ => pure true
  | _ => atNamespaceName around

/-- A declaration that a plain word introduces, if there is one. -/
def wordDecl (around : Surroundings) (word : String) : Parse (Option Decl) := do
  match word with
  | "interface" =>
    if ← atWordThen around.anchored word atAnyWord then
      advance
      let (name, members) ← g.interfaceRest
      pure (some (.interface name members))
    else pure none
  | "type" =>
    if ← atWordThen around.anchored word atAnyWord then advance; some <$> g.typeAliasRest else pure none
  | "namespace" =>
    if ← atWordThen true word (atNamespaceName around) then
      advance
      some <$> g.namespaceRest around.ambient
    else pure none
  | "module" =>
    if ← atWordThen around.anchored word (atModuleName around) then
      advance
      some <$> g.namespaceRest around.ambient
    else pure none
  | "global" =>
    if ← atWordThen around.anchored word (atMark "\x7b") then
      advance
      return some (.namespaceDecl .global (← g.namespaceItems around.ambient))
    else pure none
  | "abstract" =>
    if ← atWordThen around.anchored word (atWord "class") then
      advance
      advance
      some <$> g.classDeclRest
    else pure none
  | "async" =>
    if ← atAsyncFunction then advance; some <$> g.functionDecl true else pure none
  | "using" | "await" =>
    if ← eatUsing then
      let _ ← g.declarators "using" Place.free
      endStatement
      pure (some .other)
    else pure none
  | _ => pure none

/-- A declaration without `declare`, if there is one. -/
def bareDecl (around : Surroundings) : Parse (Option Decl) := do
  match ← kind with
  | .word "function" true => some <$> g.functionDecl false
  | .word "class" true => advance; some <$> g.classDeclRest
  | .word "enum" true =>
    advance
    if !around.anchored && (← atNewline) then fail "a name"
    some <$> g.enumRest
  | .word "const" true =>
    advance
    if ← eatWord "enum" then some <$> g.enumRest else some <$> g.variablesRest around "const"
  | .word "var" true => advance; some <$> g.variablesRest around "var"
  | .word "let" true => advance; some <$> g.variablesRest around "let"
  | .word word true => g.wordDecl around word
  | _ => pure none

/-- Words that a declaration may start with after `declare`. -/
def declarationWords : List String := ["function", "class", "enum", "const", "var", "let", "interface",
  "type", "namespace", "module", "global", "abstract", "async", "using"]

/-- A declaration, if there is one. -/
def decl (around : Surroundings) : Parse (Option Decl) := do
  let declares ← atWordThen around.anchored "declare" (do
    match ← kind with
    | .word word true => return declarationWords.contains word
    | _ => pure false)
  if declares then
    advance
    match ← g.bareDecl ⟨true, true⟩ with
    | some decl => pure (some decl)
    | none => fail "a declaration"
  else g.bareDecl around

/-! ## Statements -/

/-- An expression in parentheses. -/
def condition : Parse Expr := do
  expectMark "("
  let inner ← g.expression Place.free
  expectMark ")"
  pure inner

/-- An expression, unless the next token is `mark`. -/
def expressionUnless (mark : String) : Parse (List Expr) := do
  if ← atMark mark then pure [] else return [← g.expression Place.free]

/-- Whether a constant or a variable of a block is declared next. That may happen in lists of
statements only. -/
def atListedStatement : Parse Bool := do
  if ← ahead (do expectWord "const"; return !(← atWord "enum")) then pure true
  else if ← atUsing then pure true
  else atWordThen false "let" (do return (← atName) || (← atMark "\x7b"))

/-- A statement that is part of another one. -/
def substatement : Parse Stmt := do
  if ← atListedStatement then fail "a statement" else g.statement

/-! ### Loops -/

/-- What a `for` loop starts with. -/
inductive LoopStart where
  /-- Variables after `var`, `let` or `const`. -/
  | variables (word : String) (declarators : List Declarator)
  /-- Variables after `using`. -/
  | resources
  | expression (value : Expr)
  | nothing

/-- The expressions that a loop starts with. -/
def LoopStart.parts : LoopStart → List Expr
  | .variables _ declarators => declarators.filterMap (·.value)
  | .expression value => [value]
  | .resources | .nothing => []

/-- Whether `in` may follow: it may not if a variable of a block has a value. -/
def LoopStart.mayEnumerate : LoopStart → Bool
  | .variables word declarators => word == "var" || declarators.all (·.value.isNone)
  | .nothing => false
  | _ => true

/-- Whether `;` may follow: it may not if there is nothing to take apart. -/
def LoopStart.mayCount : LoopStart → Bool
  | .variables _ declarators => !declarators.any isEmptyHanded
  | .resources => false
  | _ => true

/-- The first part of the head of a `for` loop. -/
def loopStart : Parse LoopStart := do
  match ← kind with
  | .word "var" true => advance; .variables "var" <$> g.declarators "var" ⟨false, false⟩
  | .word "let" true => advance; .variables "let" <$> g.declarators "let" ⟨false, false⟩
  | .word "const" true => advance; .variables "const" <$> g.declarators "const" ⟨false, false⟩
  | .mark ";" => pure .nothing
  | _ =>
    if ← eatUsing then
      let _ ← g.declarators "using" ⟨false, false⟩
      pure .resources
    else .expression <$> g.expression ⟨false, false⟩

/-- The head of a `for` loop after its opening parenthesis; after `for await` only `of` is
allowed. -/
def loopHead (awaits : Bool) : Parse (List Expr) := do
  let start ← g.loopStart
  if ← eatWord "of" then
    let subject ← g.assignment Place.free
    expectMark ")"
    pure (start.parts ++ [subject])
  else if awaits then fail "of"
  else if ← atWord "in" then
    if !start.mayEnumerate then fail ";"
    advance
    let subject ← g.expression Place.free
    expectMark ")"
    pure (start.parts ++ [subject])
  else
    if !start.mayCount then fail "of"
    expectMark ";"
    let test ← g.expressionUnless ";"
    expectMark ";"
    let update ← g.expressionUnless ")"
    expectMark ")"
    pure (start.parts ++ test ++ update)

/-! ### Other statements -/

/-- A block statement. -/
def blockStmt : Parse Stmt := .block <$> g.statements

/-- The blocks after `try`. -/
def attemptRest : Parse Stmt := do
  let body ← g.blockStmt
  let handler ←
    if ← eatWord "catch" then
      if ← eatMark "(" then
        let _ ← g.binding
        let _ ← g.maybeColonType
        expectMark ")"
      some <$> g.blockStmt
    else pure none
  let finalizer ← if ← eatWord "finally" then some <$> g.blockStmt else pure none
  if handler.isNone && finalizer.isNone then fail "catch"
  pure (.attempt body (handler.getD .other) (finalizer.getD .other))

/-- A branch of a `switch`: its test, unless it is the default, and its statements. -/
def switchBranch : Parse (Option (Option Expr × Stmt)) := do
  if ← atMark "\x7d" then pure none
  else
    let test ←
      if ← eatWord "default" then pure none
      else
        expectWord "case"
        some <$> g.expression Place.free
    expectMark ":"
    let statements ← many (do
      if (← atMark "\x7d") || (← atWord "case") || (← atWord "default") then pure none
      else some <$> g.statement) g.bound
    pure (some (test, .block statements))

/-- A `switch` after its first word. -/
def switchRest : Parse Stmt := do
  let subject ← g.condition
  expectMark "\x7b"
  let branches ← many g.switchBranch g.bound
  if (branches.filter (·.1.isNone)).length > 1 then fail "case"
  expectMark "\x7d"
  pure (.switch subject (branches.filterMap (·.1)) (branches.map (·.2)))

/-- The value after `return`, if there is one. -/
def returnRest : Parse Stmt := do
  if (← atNewline) || (← atMark ";") || (← atMark "\x7d") || (← kind) == .endOfText then
    endStatement
    pure (.returns none)
  else
    let value ← g.expression Place.free
    endStatement
    pure (.returns (some value))

/-- A statement that its first word introduces, if it is one. -/
def wordStmt (word : String) : Parse (Option Stmt) := do
  match word with
  | "if" =>
    advance
    let test ← g.condition
    let consequent ← g.substatement
    let alternate ← if ← eatWord "else" then g.substatement else pure .other
    pure (some (.conditional test consequent alternate))
  | "for" =>
    advance
    let awaits ← eatWord "await"
    expectMark "("
    let head ← g.loopHead awaits
    return some (.loop head (← g.substatement))
  | "while" =>
    advance
    let test ← g.condition
    return some (.loop [test] (← g.substatement))
  | "do" =>
    advance
    let body ← g.substatement
    expectWord "while"
    let test ← g.condition
    let _ ← eatMark ";"
    pure (some (.loop [test] body))
  | "with" =>
    advance
    let subject ← g.condition
    return some (.loop [subject] (← g.substatement))
  | "return" => advance; some <$> g.returnRest
  | "throw" =>
    advance
    if ← atNewline then fail "an expression"
    let value ← g.expression Place.free
    endStatement
    pure (some (.throws value))
  | "break" | "continue" =>
    advance
    if (← atName) && !(← atNewline) then advance
    endStatement
    pure (some .other)
  | "debugger" => advance; endStatement; pure (some .other)
  | "try" => advance; some <$> g.attemptRest
  | "switch" => advance; some <$> g.switchRest
  | _ => pure none

/-- A statement other than a declaration. -/
def plainStmt : Parse Stmt := do
  match ← kind with
  | .mark "\x7b" => g.blockStmt
  | .mark ";" => advance; pure .other
  | .word word true =>
    match ← g.wordStmt word with
    | some statement => pure statement
    | none =>
      if ← ahead (do let _ ← reference; atMark ":") then
        advance
        advance
        .labeled <$> g.substatement
      else
        let value ← g.expression Place.free
        endStatement
        pure (.expression value)
  | _ =>
    let value ← g.expression Place.free
    endStatement
    pure (.expression value)

/-- A statement. -/
def statementRule : Parse Stmt := do
  match ← g.decl ⟨false, false⟩ with
  | some decl => pure decl.toStmt
  | none => g.plainStmt

end Grammar

end ComponentSchema.Syntax
