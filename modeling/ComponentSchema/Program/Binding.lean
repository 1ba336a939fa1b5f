import ComponentSchema.Classify
import ComponentSchema.Doc.Class
import ComponentSchema.Program.Scopes

/-!
# Binding

Binding a program fills its index and yields the declaration view of its files. The items of a list
are gone through twice: first for the export clauses, whose aliases name declarations before and
after them, then for imports and declarations in order.

The definitions model the binder, and their docstrings name the operations of it that they mirror.
-/
namespace ComponentSchema

open Syntax

/-- The declaration with one more body, if it is an interface. Mirrors the merging step of
`declare_interface`. -/
def TypeDecl.addBody? (decl : TypeDecl) (members : List TypeMember) : Option TypeDecl :=
  match decl.kind with
  | .interface bodies => some { decl with kind := .interface (bodies ++ [members]) }
  | _ => none

/-- The function that an initializer is, within parentheses and casts. Mirrors `unwrap_expr`. -/
def Syntax.Expr.function? : Expr → Option Function
  | .parenthesized inner | .cast inner _ | .satisfies inner | .constCast inner | .nonNull inner =>
    inner.function?
  | .arrow definition | .function definition => some definition
  | _ => none

/-- A step of binding. -/
abbrev Binding := StateM Index

namespace Binding

/-- Changes a scope. -/
def modifyScope (id : ScopeId) (change : Scope → Scope) : Binding Unit :=
  modify fun index => { index with scopes := index.scopes.modify id.index change }

/-- A new scope. Mirrors `new_scope`. -/
def newScope (name : Option String) (parent : Option ScopeId) : Binding ScopeId := do
  let index ← get
  set { index with scopes := index.scopes.push (Scope.empty name parent) }
  pure ⟨index.scopes.size⟩

/-- Adds an export to a scope, unless the name is exported already. Mirrors `export`. -/
def addExport (scope : ScopeId) (exported : String) (binding : ExportBinding) : Binding Unit :=
  modifyScope scope fun data =>
    match data.exports.lookup exported with
    | some _ => data
    | none => { data with exports := (exported, binding) :: data.exports }

/-- Binds a name in a scope to an import; a later import of the same name replaces it. -/
def addImport (scope : ScopeId) (name : String) (binding : ImportBinding) : Binding Unit :=
  modifyScope scope fun data => { data with imports := (name, binding) :: data.imports }

/-- Exports everything that a module exports. -/
def addStarExport (scope : ScopeId) (module : ModuleId) : Binding Unit :=
  modifyScope scope fun data => { data with starExports := data.starExports ++ [module] }

/-- Exports a local name under itself, if it is declared with an `export` modifier. -/
def exportIf (exported : Bool) (scope : ScopeId) (name : String) : Binding Unit := do
  if exported then addExport scope name (.own name)

/-- Declares a type, unless one of that name is declared in the scope already. Mirrors `declare`. -/
def declare (scope : ScopeId) (name : String) (kind : TypeDeclKind) (exported : Bool) : Binding Unit := do
  exportIf exported scope name
  let index ← get
  match (index.scope scope).types.lookup name with
  | some _ => pure ()
  | none =>
    set { index with decls := index.decls.push ⟨name, scope, kind⟩ }
    modifyScope scope fun data =>
      { data with types := (name, ⟨index.decls.size⟩) :: data.types }

/-- Declares an interface; a later declaration of the same interface adds a body to it. Mirrors
`declare_interface`. -/
def declareInterface (scope : ScopeId) (name : String) (members : List TypeMember) (exported : Bool) :
    Binding Unit := do
  let index ← get
  let merged := do
    let id ← (index.scope scope).types.lookup name
    let decl ← index.decls[id.index]?
    let decl ← decl.addBody? members
    pure { index with decls := index.decls.modify id.index fun _ => decl }
  match merged with
  | some index =>
    set index
    exportIf exported scope name
  | none => declare scope name (.interface [members]) exported

/-- The scope of a namespace, which its blocks share. Mirrors `namespace_scope`. -/
def namespaceScope (parent : ScopeId) (name : String) (exported : Bool) : Binding ScopeId := do
  exportIf exported parent name
  match ((← get).scope parent).namespaces.lookup name with
  | some scope => pure scope
  | none =>
    let scope ← newScope (some name) (some parent)
    modifyScope parent fun data => { data with namespaces := (name, scope) :: data.namespaces }
    pure scope

/-! ## Sites -/

/-- Keeps a type annotation. -/
def addTypeSite (scope : ScopeId) (type : TypeExpr) : Binding NodeId := do
  let index ← get
  set { index with typeSites := index.typeSites.push ⟨scope, type⟩ }
  pure ⟨index.typeSites.size⟩

/-- Keeps a function. Mirrors `function_site`. -/
def addFunctionSite (site : FunctionSite) : Binding FunctionId := do
  let index ← get
  set { index with functionSites := index.functionSites.push site }
  pure ⟨index.functionSites.size⟩

/-- Keeps a class. -/
def addClassSite (site : ClassSite) : Binding ClassId := do
  let index ← get
  set { index with classSites := index.classSites.push site }
  pure ⟨index.classSites.size⟩

/-! ## Views of types and functions -/

mutual

/-- The view of an annotation. Its site comes before those inside it. Mirrors `type_node`. -/
def typeNode (scope : ScopeId) : TypeExpr → Binding TypeNode
  | .reference name => do
    let id ← addTypeSite scope (.reference name)
    pure ⟨id, .reference name⟩
  | .function parameters returnType => do
    let id ← addTypeSite scope (.function parameters returnType)
    let function ← addFunctionSite ⟨scope, none, false⟩
    let parameters ← typeParameters scope 0 parameters
    let returnType ← typeNode scope returnType
    pure ⟨id, .function ⟨function, parameters, some returnType⟩⟩
  | type => do
    let id ← addTypeSite scope type
    pure ⟨id, .other⟩

/-- The views of the parameters of a function type, the first of which stands at `index`. Mirrors
the parameter loop of `fn_type`. -/
def typeParameters (scope : ScopeId) (index : Nat) : List TypeParameter → Binding (List Parameter)
  | [] => pure []
  | ⟨name, none⟩ :: rest => do
    let others ← typeParameters scope (index + 1) rest
    pure (⟨name.getD (positionalName index), none⟩ :: others)
  | ⟨name, some type⟩ :: rest => do
    let node ← typeNode scope type
    let others ← typeParameters scope (index + 1) rest
    pure (⟨name.getD (positionalName index), some node⟩ :: others)

end

/-- The view of an annotation that may be missing. -/
def maybeTypeNode (scope : ScopeId) : Option TypeExpr → Binding (Option TypeNode)
  | none => pure none
  | some type => some <$> typeNode scope type

/-- The views of the parameters of a function, the first of which stands at `index`. Mirrors
`parameter`. -/
def functionParameters (scope : ScopeId) :
    Nat → List Syntax.Parameter → Binding (List ComponentSchema.Parameter)
  | _, [] => pure []
  | index, parameter :: rest => do
    let node ← maybeTypeNode scope (parameter.written.map (·.type))
    let others ← functionParameters scope (index + 1) rest
    pure (⟨parameter.nameAt index, node⟩ :: others)

/-- The view of a function. Mirrors `function` and `arrow`. -/
def function (scope : ScopeId) (definition : Function) : Binding FunctionLike := do
  let id ← addFunctionSite
    ⟨scope, definition.body, definition.isAsync || definition.isGenerator⟩
  let parameters ← functionParameters scope 0 definition.parameters
  let returnType ← maybeTypeNode scope definition.returnType
  pure ⟨id, parameters, returnType⟩

/-- The view of an initializer. Mirrors `initializer`. -/
def initializer (scope : ScopeId) (value : Expr) : Binding Initializer :=
  match value.function? with
  | some definition => .function <$> function scope definition
  | none => pure .value

/-- The view of a declarator; a pattern has none. -/
def variableDecl (scope : ScopeId) (exported : Bool) (aliases : List (String × String))
    (declarator : Declarator) : Binding (Option Declaration) := do
  match declarator.name with
  | none => pure none
  | some name =>
    let node ← maybeTypeNode scope declarator.type
    let value ←
      match declarator.value with
      | none => pure none
      | some value => some <$> initializer scope value
    pure (some (.varDecl ⟨name, aliases.lookup name, exported, value, node⟩))

/-- The view of a class, given the comments before it. Mirrors `class`. -/
def classView (name : Option String) (members : List ClassMember) (exported : Bool)
    (leading : List Comment) : Binding Declaration := do
  let shown := name.getD defaultExportName
  let id ← addClassSite ⟨classSymbol shown leading, constructSignatures shown members⟩
  pure (.classDecl ⟨id, name, exported⟩)

/-! ## Clauses -/

/-- The binding of an import specifier. -/
def importBinding (module : ModuleId) : ImportSpecifier → String × ImportBinding
  | .named imported localName => (localName, .named module (imported.getD localName))
  | .default localName => (localName, .named module defaultExportName)
  | .all localName => (localName, .all module)

/-- Binds the specifiers of an import, if its source is known. Mirrors the import case of
`bind_items`. -/
def bindImport (file : ModuleFile) (scope : ScopeId) (source : StringLiteral)
    (specifiers : List ImportSpecifier) : Binding Unit :=
  match file.dependency? source with
  | none => pure ()
  | some module =>
    specifiers.forM fun specifier =>
      let (name, binding) := importBinding module specifier
      addImport scope name binding

/-- Records one entry of an export clause; `source` is the module it exports from. -/
def bindExportEntry (scope : ScopeId) (source : Option ModuleId) : ExportSpecifier → Binding Unit
  | .named original exported =>
    addExport scope (exported.getD original)
      (match source with
      | some module => .reexport module original
      | none => .own original)
  | .all exported =>
    match source with
    | some module => addExport scope exported (.all module)
    | none => pure ()

/-- Records the export clauses of an item. Mirrors `bind_export_clauses`. -/
def bindExportClause (file : ModuleFile) (scope : ScopeId) : ItemKind → Binding Unit
  | .exportNamed none entries => entries.forM (bindExportEntry scope none)
  | .exportNamed (some source) entries =>
    match file.dependency? source with
    | some module => entries.forM (bindExportEntry scope (some module))
    | none => pure ()
  | .exportAll source =>
    match file.dependency? source with
    | some module => addStarExport scope module
    | none => pure ()
  | _ => pure ()

end Binding

/-- The local names that an item exports under another name than `default`, with those names. -/
def Syntax.ItemKind.aliases : ItemKind → List (String × String)
  | .exportNamed none entries =>
    entries.filterMap fun entry =>
      match entry with
      | .named original (some exported) =>
        if exported != original && exported != defaultExportName then some (original, exported)
        else none
      | _ => none
  | _ => []

/-- The export aliases of an item list; the first one of a name counts. Mirrors the answer of
`bind_export_clauses`. -/
def exportAliases (items : List Item) : List (String × String) :=
  items.flatMap (·.kind.aliases)

namespace Binding

/-! ## Items -/

mutual

/-- Binds a declaration. The answer holds what the view shows of it. Mirrors `bind_decl` and
`namespace`. -/
def bindDecl (file : ModuleFile) (aliases : List (String × String)) (scope : ScopeId) (exported : Bool)
    (leading : List Comment) : Decl → Binding (List Declaration)
  | .function name definition => do
    let signature ← function scope definition
    pure [.funDecl ⟨some name, aliases.lookup name, exported, signature⟩]
  | .variables declarators => do
    let views ← declarators.mapM (variableDecl scope exported aliases)
    pure (views.filterMap id)
  | .classDecl name members => do
    declare scope name .nominal exported
    return [← classView (some name) members exported leading]
  | .interface name members => do
    declareInterface scope name members exported
    pure []
  | .typeAlias name type => do
    declare scope name (.typeAlias type) exported
    pure []
  | .enum name => do
    declare scope name .nominal exported
    pure []
  | .namespaceDecl .global body => do
    let declarations ← bindBody file globalScope body
    pure [.namespaceDecl "global" exported declarations]
  | .namespaceDecl (.identifier name) body => do
    let inner ← namespaceScope scope name exported
    let declarations ← bindBody file inner body
    pure [.namespaceDecl name exported declarations]
  | .namespaceDecl (.string name) body => do
    let inner ← newScope (some name) (some scope)
    let declarations ← bindBody file inner body
    pure [.namespaceDecl name exported declarations]
  | .other => pure []

/-- Binds the body of a namespace into its scope. Mirrors `namespace_body`. -/
def bindBody (file : ModuleFile) (scope : ScopeId) : NamespaceBody → Binding (List Declaration)
  | .absent => pure []
  | .nested name body => do
    let inner ← namespaceScope scope name true
    let declarations ← bindBody file inner body
    pure [.namespaceDecl name true declarations]
  | .items items => do
    items.forM fun item => bindExportClause file scope item.kind
    bindItems file (exportAliases items) scope items

/-- Binds items in order. Mirrors `bind_items`. -/
def bindItems (file : ModuleFile) (aliases : List (String × String)) (scope : ScopeId) :
    List Item → Binding (List Declaration)
  | [] => pure []
  | item :: rest => do
    let declarations ← bindItem file aliases scope item
    return declarations ++ (← bindItems file aliases scope rest)

/-- Binds an item that is no export clause. Mirrors the loop body of `bind_items` and
`bind_default_decl`. -/
def bindItem (file : ModuleFile) (aliases : List (String × String)) (scope : ScopeId) :
    Item → Binding (List Declaration)
  | ⟨leading, .declaration decl⟩ => bindDecl file aliases scope false leading decl
  | ⟨leading, .exportDecl decl⟩ => bindDecl file aliases scope true leading decl
  | ⟨_, .exportDefaultFunction name definition⟩ => do
    let signature ← function scope definition
    pure [.funDecl ⟨name, none, true, signature⟩]
  | ⟨leading, .exportDefaultClass name members⟩ => do
    match name with
    | some name =>
      declare scope name .nominal false
      addExport scope defaultExportName (.own name)
    | none => pure ()
    return [← classView name members true leading]
  | ⟨_, .exportDefaultInterface name members⟩ => do
    declareInterface scope name members false
    addExport scope defaultExportName (.own name)
    pure []
  | ⟨_, .exportDefaultExpr (.identifier name)⟩ => do
    addExport scope defaultExportName (.own name)
    pure []
  | ⟨_, .imports source specifiers⟩ => do
    bindImport file scope source specifiers
    pure []
  | _ => pure []

end

/-- Binds a file into its scope. -/
def bindFile (file : ModuleFile) (scope : ScopeId) : Binding SourceFile := do
  let declarations ← bindBody file scope (.items file.tree.items)
  pure ⟨file.path.text, declarations⟩

/-- Makes the scope of a module: its own, unless it is a script. -/
def moduleScope (file : ModuleFile) : Binding Unit := do
  let scope ← if file.tree.isScript then pure globalScope else newScope none none
  modify fun index => { index with moduleScopes := index.moduleScopes.push scope }

end Binding

/-- Binds a program: every module gets its scope, then the files are bound in program order. -/
def Modules.bindAll (modules : Modules) : Binding (List SourceFile) := do
  modules.files.toList.forM Binding.moduleScope
  let bound := modules.order.filterMap fun id => (modules.files[id.index]?).map (id, ·)
  bound.mapM fun (id, file) => do
    Binding.bindFile file ((← get).moduleScope id)

/-- The view of a program and its index. Mirrors `bind`. -/
def Modules.bind (modules : Modules) : List SourceFile × Index :=
  (modules.bindAll).run Index.empty

end ComponentSchema
