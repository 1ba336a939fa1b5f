import ComponentSchema.Facts
import ComponentSchema.Program.Modules

/-!
# Scopes

Every module has a scope, and so has every namespace; scripts share the global scope. The index
holds the scopes of a program, its type declarations, and the syntax that type questions come back
to.

A name is looked up from its scope outward and last in the global scope. A step into a module's
exports uses up one unit of a fixed budget, and so does the step from an export to the local name
behind it, so that a circle of exports leads nowhere.

The definitions model the index of the binder with its lookups, and their docstrings name the
operations that they mirror.
-/
namespace ComponentSchema

open Syntax

structure ScopeId where
  index : Nat
  deriving DecidableEq, Repr, Inhabited

structure DeclId where
  index : Nat
  deriving DecidableEq, Repr, Inhabited

/-- What an import binds a local name to. Mirrors `ImportBinding`. -/
inductive ImportBinding where
  /-- An export of a module; a default import is of the export `default`. -/
  | named (module : ModuleId) (name : String)
  /-- All exports of a module. -/
  | all (module : ModuleId)
  deriving DecidableEq, Repr, Inhabited

/-- What a module exports under a name. Mirrors `ExportBinding`. -/
inductive ExportBinding where
  /-- A local name. -/
  | own (name : String)
  /-- An export of another module. -/
  | reexport (module : ModuleId) (name : String)
  /-- All exports of another module. -/
  | all (module : ModuleId)
  deriving DecidableEq, Repr, Inhabited

structure Scope where
  /-- The name of a namespace. -/
  name : Option String
  parent : Option ScopeId
  types : List (String × DeclId)
  namespaces : List (String × ScopeId)
  imports : List (String × ImportBinding)
  exports : List (String × ExportBinding)
  /-- The modules whose exports are all exported. -/
  starExports : List ModuleId
  deriving DecidableEq, Repr, Inhabited

/-- A scope in which nothing is declared. -/
def Scope.empty (name : Option String) (parent : Option ScopeId) : Scope :=
  ⟨name, parent, [], [], [], [], []⟩

inductive TypeDeclKind where
  /-- The members of each body of a merged interface, in order. -/
  | interface (bodies : List (List TypeMember))
  | typeAlias (type : TypeExpr)
  /-- A class or an enum: a name without members. -/
  | nominal

structure TypeDecl where
  name : String
  scope : ScopeId
  kind : TypeDeclKind

instance : Inhabited TypeDecl := ⟨⟨"", ⟨0⟩, .nominal⟩⟩

/-- A type annotation where it stands. -/
structure TypeSite where
  scope : ScopeId
  type : TypeExpr

/-- A function where it stands. -/
structure FunctionSite where
  scope : ScopeId
  /-- `none` for a signature without a body. -/
  body : Option Body
  /-- An async function or a generator never returns the value of its body. -/
  wrapsResult : Bool

/-- The documented facts of a class. -/
structure ClassSite where
  symbol : SymbolDoc
  constructors : List SignatureDoc
  deriving DecidableEq, Repr, Inhabited

/-- Everything that type questions are answered from. Mirrors `Index`. -/
structure Index where
  scopes : Array Scope
  /-- The scope of each module. -/
  moduleScopes : Array ScopeId
  decls : Array TypeDecl
  typeSites : Array TypeSite
  functionSites : Array FunctionSite
  classSites : Array ClassSite

/-- The scope that scripts share. -/
def globalScope : ScopeId := ⟨0⟩

/-- How many steps into exports a name may take, the one over the limit included. -/
def exportBudget : Nat := 33

namespace Index

/-- An index of no modules. -/
def empty : Index := ⟨#[Scope.empty none none], #[], #[], #[], #[], #[]⟩

def scope (index : Index) (id : ScopeId) : Scope :=
  (index.scopes[id.index]?).getD (Scope.empty none none)

def moduleScope (index : Index) (id : ModuleId) : ScopeId :=
  (index.moduleScopes[id.index]?).getD globalScope

/-- The type that a qualified name leads to inside a namespace. Mirrors `lookup_qualified`. -/
def lookupQualified (index : Index) : ScopeId → List String → Option DeclId
  | _, [] => none
  | scope, [name] => (index.scope scope).types.lookup name
  | scope, name :: rest =>
    match (index.scope scope).namespaces.lookup name with
    | some inner => index.lookupQualified inner rest
    | none => none

/-- The type that a name leads to among the declarations of a scope itself. Mirrors the first half
of `lookup_in_scope`. -/
def lookupDeclared (index : Index) (scope : ScopeId) : List String → Option DeclId
  | [] => none
  | [name] => (index.scope scope).types.lookup name
  | name :: rest =>
    match (index.scope scope).namespaces.lookup name with
    | some inner => index.lookupQualified inner rest
    | none => none

theorem lookupDeclared_eq (index : Index) (scope : ScopeId) (segments : List String) :
    index.lookupDeclared scope segments = index.lookupQualified scope segments := by
  rcases segments with _ | ⟨name, _ | ⟨next, rest⟩⟩
  · rfl
  · rfl
  · rw [lookupDeclared, lookupQualified] <;> simp

mutual

/-- The type that a name leads to in a scope: among its declarations, else through its imports.
Mirrors `lookup_in_scope`. -/
def lookupIn (index : Index) : Nat → ScopeId → List String → Option DeclId
  | 0, scope, segments => index.lookupDeclared scope segments
  | budget + 1, scope, segments =>
    match index.lookupDeclared scope segments with
    | some decl => some decl
    | none =>
      match segments with
      | [] => none
      | first :: rest =>
        match (index.scope scope).imports.lookup first with
        | some (.named module name) => index.lookupExport budget module name rest
        | some (.all module) =>
          match rest with
          | [] => none
          | name :: rest => index.lookupExport budget module name rest
        | none => none

/-- The type that an export of a module leads to. An export entry decides alone; without one the
modules whose exports are all exported are searched in order. Mirrors `lookup_export`. -/
def lookupExport (index : Index) : Nat → ModuleId → String → List String → Option DeclId
  | 0, _, _, _ => none
  | budget + 1, module, name, rest =>
    let scope := index.moduleScope module
    match (index.scope scope).exports.lookup name with
    | some (.own localName) => index.lookupIn budget scope (localName :: rest)
    | some (.reexport module name) => index.lookupExport budget module name rest
    | some (.all module) =>
      match rest with
      | [] => none
      | name :: rest => index.lookupExport budget module name rest
    | none =>
      (index.scope scope).starExports.findSome? fun star =>
        index.lookupExport budget star name rest

end

/-- A scope and the scopes around it, innermost first; at most `steps` of them. -/
def enclosing (index : Index) : Nat → ScopeId → List ScopeId
  | 0, _ => []
  | steps + 1, scope =>
    match (index.scope scope).parent with
    | some parent => scope :: index.enclosing steps parent
    | none => [scope]

/-- The scopes that a name is looked up in, in order. -/
def searchOrder (index : Index) (scope : ScopeId) : List ScopeId :=
  let chain := index.enclosing index.scopes.size scope
  if globalScope ∈ chain then chain else chain ++ [globalScope]

/-- The type declaration that a name leads to, as seen from a scope. Mirrors `lookup`. -/
def lookup (index : Index) (scope : ScopeId) (segments : List String) : Option DeclId :=
  (index.searchOrder scope).findSome? fun scope => index.lookupIn exportBudget scope segments

end Index

end ComponentSchema
