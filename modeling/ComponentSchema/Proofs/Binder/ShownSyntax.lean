import ComponentSchema.Program.Binding
import Mathlib.Data.List.Forall2
import Mathlib.Data.List.Nodup

/-!
# What a view shows

A view shows the syntax that it was made from: an annotation in a node, a function in a signature, a
class under its name. The ids in it lead back to that syntax, which the index keeps in three tables,
each piece with the scope of the file or the namespace block that it stands in.

`Index.ShowsType`, `Index.ShowsFunction` and `Index.ShowsDecl` relate syntax and view piece by piece.
The parts of a view are all nodes, signatures and classes in it, in the order in which it is read.
-/
namespace ComponentSchema

open Syntax

/-! ## Parts -/

/-- The nodes, signatures and classes of a view. -/
structure ViewParts where
  nodes : List TypeNode
  signatures : List FunctionLike
  classes : List ClassDeclaration

/-- Positions in the tables of an index: of annotations, functions and classes. -/
structure Ids where
  nodes : List Nat
  functions : List Nat
  classes : List Nat
  deriving DecidableEq, Repr

namespace Ids

instance : EmptyCollection Ids := ⟨⟨[], [], []⟩⟩

instance : Append Ids where
  append ids others :=
    ⟨ids.nodes ++ others.nodes, ids.functions ++ others.functions, ids.classes ++ others.classes⟩

theorem append_def (ids others : Ids) : ids ++ others =
    ⟨ids.nodes ++ others.nodes, ids.functions ++ others.functions, ids.classes ++ others.classes⟩ := rfl

@[simp] theorem append_empty (ids : Ids) : ids ++ (∅ : Ids) = ids := by
  cases ids
  exact congr (congr (congrArg Ids.mk (List.append_nil _)) (List.append_nil _)) (List.append_nil _)

@[simp] theorem empty_append (ids : Ids) : (∅ : Ids) ++ ids = ids := rfl

@[simp] theorem append_assoc (a b c : Ids) : a ++ b ++ c = a ++ (b ++ c) := by
  simp only [append_def, List.append_assoc]

/-- Ids at the positions from zero on differ from each other. -/
theorem nodup_of_map_range {α ι : Type} {items : List α} {n : Nat} (id : α → ι) (position : ι → Nat)
    (h : items.map (fun item => position (id item)) = List.range n) : (items.map id).Nodup := by
  refine List.Nodup.of_map position ?_
  rw [List.map_map]
  exact h ▸ List.nodup_range

end Ids

namespace ViewParts

instance : EmptyCollection ViewParts := ⟨⟨[], [], []⟩⟩

instance : Append ViewParts where
  append parts others :=
    ⟨parts.nodes ++ others.nodes, parts.signatures ++ others.signatures, parts.classes ++ others.classes⟩

/-- The ids of the parts. -/
def ids (parts : ViewParts) : Ids :=
  ⟨parts.nodes.map (·.id.index), parts.signatures.map (·.id.index), parts.classes.map (·.id.index)⟩

theorem append_def (parts others : ViewParts) : parts ++ others =
    ⟨parts.nodes ++ others.nodes, parts.signatures ++ others.signatures,
      parts.classes ++ others.classes⟩ := rfl

theorem append_assoc (a b c : ViewParts) : a ++ b ++ c = a ++ (b ++ c) := by
  simp only [append_def, List.append_assoc]

@[simp] theorem ids_empty : (∅ : ViewParts).ids = ∅ := rfl

@[simp] theorem ids_append (parts others : ViewParts) : (parts ++ others).ids = parts.ids ++ others.ids :=
  congr (congr (congrArg Ids.mk List.map_append) List.map_append) List.map_append

end ViewParts

mutual

/-- A node, and what the annotation shows inside it. -/
def TypeNode.parts : TypeNode → ViewParts
  | ⟨id, shape⟩ => ⟨[⟨id, shape⟩], [], []⟩ ++ shape.parts

def TypeShape.parts : TypeShape → ViewParts
  | .reference _ => ∅
  | .function signature => signature.parts
  | .other => ∅

/-- A signature, and the annotations of its parameters and of what it returns. -/
def FunctionLike.parts : FunctionLike → ViewParts
  | ⟨id, parameters, returnType⟩ =>
    ⟨[], [⟨id, parameters, returnType⟩], []⟩ ++ partsOfParameters parameters ++ partsOfTyping returnType

def partsOfTyping : Option TypeNode → ViewParts
  | none => ∅
  | some node => node.parts

def partsOfParameters : List Parameter → ViewParts
  | [] => ∅
  | ⟨_, node⟩ :: rest => partsOfTyping node ++ partsOfParameters rest

end

theorem FunctionLike.parts_eq (signature : FunctionLike) : signature.parts =
    ⟨[], [signature], []⟩ ++ partsOfParameters signature.parameters ++
      partsOfTyping signature.returnType := by
  cases signature
  rfl

theorem partsOfParameters_cons (parameter : Parameter) (rest : List Parameter) :
    partsOfParameters (parameter :: rest) =
      partsOfTyping parameter.typeNode ++ partsOfParameters rest := by
  cases parameter
  rfl

@[simp] theorem TypeNode.ids_parts (id : NodeId) (shape : TypeShape) :
    (TypeNode.mk id shape).parts.ids = ⟨[id.index], [], []⟩ ++ shape.parts.ids := by
  rw [TypeNode.parts, ViewParts.ids_append]
  rfl

@[simp] theorem FunctionLike.ids_parts (signature : FunctionLike) : signature.parts.ids =
    ⟨[], [signature.id.index], []⟩ ++ (partsOfParameters signature.parameters).ids ++
      (partsOfTyping signature.returnType).ids := by
  rw [FunctionLike.parts_eq, ViewParts.ids_append, ViewParts.ids_append]
  rfl

/-- The parts of what a variable is initialized with. -/
def partsOfInitializer : Option Initializer → ViewParts
  | some (.function signature) => signature.parts
  | _ => ∅

mutual

/-- The parts of a declaration, those of a namespace with its body. -/
def Declaration.parts : Declaration → ViewParts
  | .funDecl declaration => declaration.signature.parts
  | .varDecl declaration => partsOfTyping declaration.typeNode ++ partsOfInitializer declaration.initializer
  | .namespaceDecl _ _ body => partsOfDeclarations body
  | .classDecl declaration => ⟨[], [], [declaration]⟩

def partsOfDeclarations : List Declaration → ViewParts
  | [] => ∅
  | declaration :: rest => declaration.parts ++ partsOfDeclarations rest

end

theorem partsOfDeclarations_append (declarations others : List Declaration) :
    partsOfDeclarations (declarations ++ others) =
      partsOfDeclarations declarations ++ partsOfDeclarations others := by
  induction declarations with
  | nil => rfl
  | cons declaration rest ih =>
    rw [List.cons_append, partsOfDeclarations, ih, partsOfDeclarations, ViewParts.append_assoc]

/-- The parts of several files. -/
def partsOfFiles : List SourceFile → ViewParts
  | [] => ∅
  | file :: rest => partsOfDeclarations file.declarations ++ partsOfFiles rest

/-! ## Syntax and view -/

/-- Whether the view of an annotation shows more of it than that it is there. -/
def Syntax.TypeExpr.isShown : TypeExpr → Bool
  | .reference _ | .function _ _ => true
  | _ => false

/-- Whether the view shows nothing of a declaration. -/
def Syntax.Decl.isHidden : Decl → Bool
  | .interface _ _ | .typeAlias _ _ | .enum _ | .other => true
  | _ => false

/-- Whether the view shows nothing of an item. -/
def Syntax.ItemKind.isHidden : ItemKind → Bool
  | .declaration _ | .exportDecl _ | .exportDefaultFunction _ _ | .exportDefaultClass _ _ => false
  | _ => true

namespace Index

variable (index : Index)

section

variable (x : ScopeId)

mutual

/-- A node that shows an annotation in a scope: the index keeps both under its id. -/
inductive ShowsType : TypeExpr → TypeNode → Prop
  | reference {id : NodeId} {name : EntityName} :
    index.typeSites[id.index]? = some ⟨x, .reference name⟩ →
      ShowsType (.reference name) ⟨id, .reference name⟩
  | function {id : NodeId} {function : FunctionId} {parameters : List TypeParameter}
    {returnType : TypeExpr} {views : List Parameter} {node : TypeNode} :
    index.typeSites[id.index]? = some ⟨x, .function parameters returnType⟩ →
      index.functionSites[function.index]? = some ⟨x, none, false⟩ →
        ShowsTypeParameters parameters views → ShowsType returnType node →
          ShowsType (.function parameters returnType) ⟨id, .function ⟨function, views, some node⟩⟩
  | other {id : NodeId} {type : TypeExpr} : type.isShown = false →
    index.typeSites[id.index]? = some ⟨x, type⟩ → ShowsType type ⟨id, .other⟩

inductive ShowsTypeParameters : List TypeParameter → List Parameter → Prop
  | nil : ShowsTypeParameters [] []
  | cons {parameter : TypeParameter} {view : Parameter} {rest : List TypeParameter}
    {views : List Parameter} : ShowsTyping parameter.type view.typeNode →
      ShowsTypeParameters rest views → ShowsTypeParameters (parameter :: rest) (view :: views)

/-- An annotation that may be missing. -/
inductive ShowsTyping : Option TypeExpr → Option TypeNode → Prop
  | none : ShowsTyping none none
  | some {type : TypeExpr} {node : TypeNode} : ShowsType type node → ShowsTyping (some type) (some node)

end

/-- A signature that shows a function: the index keeps its scope, its body and whether it is async or a
generator. -/
structure ShowsFunction (definition : Function) (signature : FunctionLike) : Prop where
  site : index.functionSites[signature.id.index]? =
    some ⟨x, definition.body, definition.isAsync || definition.isGenerator⟩
  parameters : List.Forall₂
    (fun parameter view => index.ShowsTyping x (parameter.written.map (·.type)) view.typeNode)
    definition.parameters signature.parameters
  returnType : index.ShowsTyping x definition.returnType signature.returnType

/-- An initializer that may be missing; of one that is no function nothing is shown. -/
inductive ShowsInitializer : Option Expr → Option Initializer → Prop
  | none : ShowsInitializer none none
  | function {value : Expr} {definition : Function} {signature : FunctionLike} :
    value.function? = some definition → index.ShowsFunction x definition signature →
      ShowsInitializer (some value) (some (.function signature))
  | value {value : Expr} : value.function? = none → ShowsInitializer (some value) (some .value)

/-- The declarators with a name. -/
inductive ShowsVariables : List Declarator → List Declaration → Prop
  | nil : ShowsVariables [] []
  | pattern {declarator : Declarator} {rest : List Declarator} {views : List Declaration} :
    declarator.name = none → ShowsVariables rest views → ShowsVariables (declarator :: rest) views
  | cons {declarator : Declarator} {view : VariableDeclaration} {rest : List Declarator}
    {views : List Declaration} : declarator.name = some view.name →
      index.ShowsTyping x declarator.type view.typeNode →
        index.ShowsInitializer x declarator.value view.initializer →
          ShowsVariables rest views → ShowsVariables (declarator :: rest) (.varDecl view :: views)

theorem ShowsVariables.append {index : Index} {x : ScopeId} {declarators others : List Declarator}
    {views views' : List Declaration} (h : index.ShowsVariables x declarators views)
    (h' : index.ShowsVariables x others views') :
    index.ShowsVariables x (declarators ++ others) (views ++ views') := by
  induction h with
  | nil => exact h'
  | pattern hname _ ih => exact .pattern hname ih
  | cons hname htype hvalue _ ih => exact .cons hname htype hvalue ih

end

/-- A class, with the facts that are documented of it. -/
structure ShowsClass (name : Option String) (members : List ClassMember) (leading : List Comment)
    (view : ClassDeclaration) : Prop where
  named : view.name = name
  site : index.classSites[view.id.index]? =
    some ⟨classSymbol (name.getD defaultExportName) leading,
      constructSignatures (name.getD defaultExportName) members⟩

mutual

/-- The views that show a declaration in a scope. What stands in a namespace is kept with the scope of
the namespace; what stands in a `declare module` block with that of the block, which is no other's. The
last argument lists the scopes of these blocks. -/
inductive ShowsDecl : ScopeId → List Comment → Decl → List Declaration → List ScopeId → Prop
  | function {x : ScopeId} {leading : List Comment} {name : String} {definition : Function}
    {view : FunctionDeclaration} : view.name = some name →
      index.ShowsFunction x definition view.signature →
        ShowsDecl x leading (.function name definition) [.funDecl view] []
  | variables {x : ScopeId} {leading : List Comment} {declarators : List Declarator}
    {views : List Declaration} : index.ShowsVariables x declarators views →
      ShowsDecl x leading (.variables declarators) views []
  | classDecl {x : ScopeId} {leading : List Comment} {name : String} {members : List ClassMember}
    {view : ClassDeclaration} : index.ShowsClass (some name) members leading view →
      ShowsDecl x leading (.classDecl name members) [.classDecl view] []
  | hidden {x : ScopeId} {leading : List Comment} {decl : Decl} : decl.isHidden →
    ShowsDecl x leading decl [] []
  | global {x : ScopeId} {leading : List Comment} {body : NamespaceBody} {exported : Bool}
    {views : List Declaration} {blocks : List ScopeId} : ShowsBody globalScope body views blocks →
      ShowsDecl x leading (.namespaceDecl .global body) [.namespaceDecl "global" exported views] blocks
  | identifier {x inner : ScopeId} {leading : List Comment} {name : String} {body : NamespaceBody}
    {exported : Bool} {views : List Declaration} {blocks : List ScopeId} :
    (index.scope x).namespaces.lookup name = some inner → ShowsBody inner body views blocks →
      ShowsDecl x leading (.namespaceDecl (.identifier name) body) [.namespaceDecl name exported views]
        blocks
  | string {x inner : ScopeId} {leading : List Comment} {name : String} {body : NamespaceBody}
    {exported : Bool} {views : List Declaration} {blocks : List ScopeId} :
    (index.scope inner).name = some name → (index.scope inner).parent = some x →
      (∀ (z : ScopeId) (other : String), (index.scope z).namespaces.lookup other ≠ some inner) →
        ShowsBody inner body views blocks →
          ShowsDecl x leading (.namespaceDecl (.string name) body) [.namespaceDecl name exported views]
            (inner :: blocks)

/-- The views that show the body of a namespace in its scope. -/
inductive ShowsBody : ScopeId → NamespaceBody → List Declaration → List ScopeId → Prop
  | absent {x : ScopeId} : ShowsBody x .absent [] []
  | nested {x inner : ScopeId} {name : String} {body : NamespaceBody} {views : List Declaration}
    {blocks : List ScopeId} : (index.scope x).namespaces.lookup name = some inner →
      ShowsBody inner body views blocks →
        ShowsBody x (.nested name body) [.namespaceDecl name true views] blocks
  | items {x : ScopeId} {items : List Item} {views : List Declaration} {blocks : List ScopeId} :
    ShowsItems x items views blocks → ShowsBody x (.items items) views blocks

inductive ShowsItems : ScopeId → List Item → List Declaration → List ScopeId → Prop
  | nil {x : ScopeId} : ShowsItems x [] [] []
  | cons {x : ScopeId} {item : Item} {rest : List Item} {views others : List Declaration}
    {blocks others' : List ScopeId} : ShowsItem x item views blocks → ShowsItems x rest others others' →
      ShowsItems x (item :: rest) (views ++ others) (blocks ++ others')

/-- The views that show an item, by itself or exported. -/
inductive ShowsItem : ScopeId → Item → List Declaration → List ScopeId → Prop
  | declaration {x : ScopeId} {leading : List Comment} {decl : Decl} {views : List Declaration}
    {blocks : List ScopeId} : ShowsDecl x leading decl views blocks →
      ShowsItem x ⟨leading, .declaration decl⟩ views blocks
  | exportDecl {x : ScopeId} {leading : List Comment} {decl : Decl} {views : List Declaration}
    {blocks : List ScopeId} : ShowsDecl x leading decl views blocks →
      ShowsItem x ⟨leading, .exportDecl decl⟩ views blocks
  | exportDefaultFunction {x : ScopeId} {leading : List Comment} {name : Option String}
    {definition : Function} {view : FunctionDeclaration} : view.name = name →
      index.ShowsFunction x definition view.signature →
        ShowsItem x ⟨leading, .exportDefaultFunction name definition⟩ [.funDecl view] []
  | exportDefaultClass {x : ScopeId} {leading : List Comment} {name : Option String}
    {members : List ClassMember} {view : ClassDeclaration} : index.ShowsClass name members leading view →
      ShowsItem x ⟨leading, .exportDefaultClass name members⟩ [.classDecl view] []
  | hidden {x : ScopeId} {item : Item} : item.kind.isHidden → ShowsItem x item [] []

end

/-- The views of the files, one for each file, in the scopes of their modules. -/
inductive ShowsFiles : List (ModuleId × ModuleFile) → List SourceFile → List ScopeId → Prop
  | nil : ShowsFiles [] [] []
  | cons {entry : ModuleId × ModuleFile} {view : SourceFile} {rest : List (ModuleId × ModuleFile)}
    {views : List SourceFile} {blocks others : List ScopeId} : view.path = entry.2.path.text →
      index.ShowsItems (index.moduleScope entry.1) entry.2.tree.items view.declarations blocks →
        ShowsFiles rest views others → ShowsFiles (entry :: rest) (view :: views) (blocks ++ others)

end Index

end ComponentSchema
