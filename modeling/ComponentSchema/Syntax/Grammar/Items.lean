import ComponentSchema.Syntax.Grammar.Statements

/-!
# Items

Readers of the items of files and namespaces: imports, exports, declarations and statements.
-/
namespace ComponentSchema.Syntax

open Parse

namespace Grammar

variable (g : Grammar)

/-- A string. -/
def stringLiteral : Parse StringLiteral := do
  match ← kind with
  | .string value => advance; pure value
  | _ => fail "a string"

/-- A name in a clause, which may be any word or a string. -/
def clauseName : Parse String := do
  match ← kind with
  | .string value => advance; pure value.lossy
  | _ => anyWord

/-- `with { type: "json" }` after a module name, if it is there. -/
def importAttributes : Parse Unit := do
  let starts ← ahead (do
    if (← atWord "with") || ((← atWord "assert") && !(← atNewline)) then
      advance
      atMark "\x7b"
    else pure false)
  if starts then
    advance
    advance
    let _ ← commaList "\x7d" (do
      let _ ← clauseName
      expectMark ":"
      stringLiteral) g.bound

/-- `from "m"` and the end of the statement. -/
def fromClause : Parse StringLiteral := do
  expectWord "from"
  let source ← stringLiteral
  g.importAttributes
  endStatement
  pure source

/-- `type` in front of an entry of a clause. -/
def eatTypeModifier : Parse Unit := do
  let modifies ← ahead (do
    expectWord "type"
    if ← eatWord "as" then
      if ← eatWord "as" then
        match ← kind with
        | .word .. | .string _ => pure true
        | _ => pure false
      else return (← atMark ",") || (← atMark "\x7d")
    else
      match ← kind with
      | .word .. | .string _ => pure true
      | _ => pure false)
  if modifies then advance

/-- An entry of `import { … }`. -/
def importEntry : Parse ImportSpecifier := do
  eatTypeModifier
  let isString :=
    match ← kind with
    | .string _ => true
    | _ => false
  let imported ← clauseName
  if ← eatWord "as" then
    return .named (some imported) (← boundName)
  else if isString then fail "as"
  else pure (.named none imported)

/-- An entry of `export { … }`. -/
def exportEntry : Parse ExportSpecifier := do
  eatTypeModifier
  let original ← clauseName
  if ← eatWord "as" then
    return .named original (some (← clauseName))
  else pure (.named original none)

/-- `* as name` or `{ a, b as c }`. -/
def importBindings : Parse (List ImportSpecifier) := do
  if ← eatMark "*" then
    expectWord "as"
    return [.all (← boundName)]
  else
    expectMark "\x7b"
    commaList "\x7d" importEntry g.bound

/-- What stands after `import a =`. -/
def importEqualsRest : Parse ItemKind := do
  let required ← ahead (do expectWord "require"; atMark "(")
  if required then
    advance
    advance
    let _ ← stringLiteral
    expectMark ")"
  else
    let _ ← g.entityName
  endStatement
  pure .otherModule

/-- Whether `type` after `import` says that only types are imported. -/
def atTypeOnlyImport : Parse Bool :=
  ahead (do
    expectWord "type"
    if (← atMark "\x7b") || (← atMark "*") then pure true
    else if ← atWord "from" then
      advance
      return (← atWord "from") || (← atMark "=")
    else atName)

/-- An import after `import`. -/
def importRest : Parse ItemKind := do
  if ← atTypeOnlyImport then advance
  match ← kind with
  | .string source =>
    advance
    g.importAttributes
    let _ ← eatMark ";"
    pure (.imports source [])
  | .word .. =>
    let first ← freeName
    if ← eatMark "=" then g.importEqualsRest
    else
      let others ← if ← eatMark "," then g.importBindings else pure []
      let source ← g.fromClause
      pure (.imports source (.default first :: others))
  | _ =>
    let specifiers ← g.importBindings
    let source ← g.fromClause
    pure (.imports source specifiers)

/-- A default export after `export default`. -/
def exportDefaultRest : Parse ItemKind := do
  let isAsync ← atAsyncFunction
  if isAsync || (← atWord "function") then
    if isAsync then advance
    expectWord "function"
    let isGenerator ← eatMark "*"
    let name ← if ← atFreeName then some <$> freeName else pure none
    .exportDefaultFunction name <$> g.functionRest isAsync isGenerator g.maybeBody
  else if (← atWord "class") || (← atWordThen false "abstract" (atWord "class")) then
    let _ ← eatWord "abstract"
    expectWord "class"
    let name ← if ← atFreeName then some <$> freeName else pure none
    .exportDefaultClass name <$> g.classRest
  else if ← atWordThen true "interface" atName then
    advance
    let (name, members) ← g.interfaceRest
    pure (.exportDefaultInterface name members)
  else
    let value ← g.assignment Place.free
    endStatement
    pure (.exportDefaultExpr value)

/-- `* from "m"` or `* as a from "m"`. -/
def exportAllRest : Parse ItemKind := do
  expectMark "*"
  let exported ← if ← eatWord "as" then some <$> clauseName else pure none
  let source ← g.fromClause
  match exported with
  | some name => pure (.exportNamed (some source) [.all name])
  | none => pure (.exportAll source)

/-- `{ a as b } from "m"`. -/
def exportClauseRest : Parse ItemKind := do
  expectMark "\x7b"
  let entries ← commaList "\x7d" exportEntry g.bound
  if ← atWord "from" then
    let source ← g.fromClause
    pure (.exportNamed (some source) entries)
  else
    let _ ← eatMark ";"
    pure (.exportNamed none entries)

/-- An export after `export`. -/
def exportRest (ambient : Bool) : Parse ItemKind := do
  let typeOnly ← ahead (do
    expectWord "type"
    return (← atMark "\x7b") || (← atMark "*"))
  if typeOnly then advance
  if ← eatWord "default" then g.exportDefaultRest
  else if ← atMark "*" then g.exportAllRest
  else if ← atMark "\x7b" then g.exportClauseRest
  else if ← eatMark "=" then
    let _ ← g.expression Place.free
    endStatement
    pure .otherModule
  else if ← ahead (do expectWord "as"; atWord "namespace") then
    advance
    advance
    let _ ← boundName
    endStatement
    pure .otherModule
  else if ← eatWord "import" then
    if ← atTypeOnlyImport then advance
    let _ ← anyWord
    expectMark "="
    g.importEqualsRest
  else
    match ← g.decl ⟨true, ambient⟩ with
    | some decl => pure (.exportDecl decl)
    | none => fail "a declaration"

/-- An item without the comments before it. -/
def itemKind (ambient : Bool) : Parse ItemKind := do
  if ← atWord "import" then
    let isExpression ← ahead (do advance; return (← atMark "(") || (← atMark "."))
    if isExpression then .statement <$> g.plainStmt
    else
      advance
      g.importRest
  else if ← eatWord "export" then g.exportRest ambient
  else
    match ← g.decl ⟨false, ambient⟩ with
    | some decl => pure (.declaration decl)
    | none => .statement <$> g.plainStmt

/-- An item. -/
def itemRule (ambient : Bool) : Parse Item := do
  let leading := (← token).leading
  return ⟨leading, ← g.itemKind ambient⟩

end Grammar

end ComponentSchema.Syntax
