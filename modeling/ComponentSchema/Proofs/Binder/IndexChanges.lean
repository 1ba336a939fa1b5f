import ComponentSchema.Proofs.Binder.BindingInduction
import ComponentSchema.Proofs.Binder.ViewInduction
import Mathlib.Logic.Relation

/-!
# Changes of an index

Binding makes an index out of a few changes, one after the other: a scope is made or gets an entry, a
type is declared or gets another body, or some syntax is kept. What each of them keeps up holds of
every index that a program is bound to.

Results.
* `Index.Change.nested`: scopes stay nested, each in one that was made before it.
* `Binding.act_makes`, `Binding.bindBody_changes`: what is bound makes such changes, act by act.
* `Modules.bind_changes`: the index of a program is made by such changes.
* `Modules.bind_nested`: the scopes of a program are nested.
-/
namespace ComponentSchema

open Relation Syntax

/-- The module that a name is imported from. -/
def ImportBinding.source : ImportBinding → ModuleId
  | .named g _ => g
  | .all g => g

/-- The module that a name is exported from, if it is another one. -/
def ExportBinding.source? : ExportBinding → Option ModuleId
  | .own _ => none
  | .reexport g _ => some g
  | .all g => some g

/-- All modules that a file refers to are of `M`. -/
def ModuleFile.Within (file : ModuleFile) (M : ModuleId → Prop) : Prop :=
  ∀ source g, file.dependency? source = some g → M g

namespace Index

variable {index index' index'' : Index} {x z : ScopeId} {M : ModuleId → Prop}

/-- The index with a changed scope. -/
abbrev modifyScope (index : Index) (x : ScopeId) (change : Scope → Scope) : Index :=
  { index with scopes := index.scopes.modify x.index change }

/-- The index with one more scope. -/
abbrev pushScope (index : Index) (data : Scope) : Index :=
  { index with scopes := index.scopes.push data }

theorem scope_modify (index : Index) (z : ScopeId) (change : Scope → Scope)
    (hx : x.index < index.scopes.size) :
    (index.modifyScope x change).scope z = if z = x then change (index.scope x) else index.scope z := by
  obtain ⟨i⟩ := x
  obtain ⟨j⟩ := z
  simp only at hx
  by_cases hji : j = i
  · subst hji
    simp only [scope, Array.getElem?_modify, Array.getElem?_eq_getElem hx, if_true,
      Option.map_some, Option.getD_some]
  · simp [scope, Array.getElem?_modify, hji, Ne.symm hji]

theorem scope_push (index : Index) (z : ScopeId) (data : Scope) :
    (index.pushScope data).scope z = if z.index = index.scopes.size then data else index.scope z := by
  simp only [scope, Array.getElem?_push]
  split <;> rfl

/-! ## What binding changes -/

/-- One change that binding makes; what is imported and exported are modules of `M`. -/
inductive Change (M : ModuleId → Prop) : Index → Index → Prop where
  | newScope {index : Index} (name : Option String) {parent : Option ScopeId}
    (hparent : ∀ p ∈ parent, p.index < index.scopes.size) :
    Change M index (index.pushScope (Scope.empty name parent))
  | moduleScope {index : Index} {x : ScopeId} (hx : x.index < index.scopes.size) :
    Change M index { index with moduleScopes := index.moduleScopes.push x }
  | addNamespace {index : Index} {x inner : ScopeId} {name : String}
    (hx : x.index < index.scopes.size) (hinner : inner.index < index.scopes.size)
    (hname : (index.scope inner).name = some name) (hparent : (index.scope inner).parent = some x) :
    Change M index (index.modifyScope x fun data =>
      { data with namespaces := (name, inner) :: data.namespaces })
  | addExport {index : Index} {x : ScopeId} (hx : x.index < index.scopes.size) (name : String)
    (binding : ExportBinding) (hmodule : ∀ g ∈ binding.source?, M g) :
    Change M index (index.modifyScope x fun data =>
      match data.exports.lookup name with
      | some _ => data
      | none => { data with exports := (name, binding) :: data.exports })
  | addImport {index : Index} {x : ScopeId} (hx : x.index < index.scopes.size) (name : String)
    (binding : ImportBinding) (hmodule : M binding.source) :
    Change M index (index.modifyScope x fun data =>
      { data with imports := (name, binding) :: data.imports })
  | addStarExport {index : Index} {x : ScopeId} (hx : x.index < index.scopes.size)
    (module : ModuleId) (hmodule : M module) :
    Change M index (index.modifyScope x fun data =>
      { data with starExports := data.starExports ++ [module] })
  | declare {index : Index} {x : ScopeId} {name : String} (hx : x.index < index.scopes.size)
    (hnew : (index.scope x).types.lookup name = none) (kind : TypeDeclKind) :
    Change M index ({ index with decls := index.decls.push ⟨name, x, kind⟩ }.modifyScope x fun data =>
      { data with types := (name, ⟨index.decls.size⟩) :: data.types })
  | addBody {index : Index} {id : DeclId} {decl decl' : TypeDecl} {members : List TypeMember}
    (hdecl : index.decls[id.index]? = some decl) (hbody : decl.addBody? members = some decl') :
    Change M index { index with decls := index.decls.modify id.index fun _ => decl' }
  | typeSite {index : Index} {site : TypeSite} (hx : site.scope.index < index.scopes.size) :
    Change M index { index with typeSites := index.typeSites.push site }
  | functionSite {index : Index} {site : FunctionSite} (hx : site.scope.index < index.scopes.size) :
    Change M index { index with functionSites := index.functionSites.push site }
  | classSite {index : Index} (site : ClassSite) :
    Change M index { index with classSites := index.classSites.push site }

/-- Some changes, one after the other. -/
abbrev Changes (M : ModuleId → Prop) : Index → Index → Prop := ReflTransGen (Change M)

/-- Every scope that there is stands in scopes that were made before it. -/
structure Nested (index : Index) : Prop where
  global : 0 < index.scopes.size
  parent : ∀ {x p : ScopeId}, (index.scope x).parent = some p → p.index < x.index
  namespaces : ∀ {x inner : ScopeId} {name : String},
    (name, inner) ∈ (index.scope x).namespaces → inner.index < index.scopes.size
  modules : ∀ x ∈ index.moduleScopes, x.index < index.scopes.size

theorem Nested.moduleScope_lt {index : Index} (h : index.Nested) (g : ModuleId) :
    (index.moduleScope g).index < index.scopes.size := by
  unfold Index.moduleScope
  rcases hscope : index.moduleScopes[g.index]? with _ | x
  · exact h.global
  · exact h.modules x (Array.mem_of_getElem? hscope)

theorem Nested.empty : empty.Nested where
  global := Nat.one_pos
  parent {x p} hp := by
    obtain ⟨_ | i⟩ := x
    · cases hp
    · simp [scope, Index.empty, Scope.empty] at hp
  namespaces {x inner name} hmem := by
    obtain ⟨_ | i⟩ := x
    · cases hmem
    · simp [scope, Index.empty, Scope.empty] at hmem
  modules x hx := by simp [Index.empty] at hx

/-- A scope that keeps its parent, and in which no namespaces are new but those that there are. -/
theorem Nested.modifyScope (h : index.Nested) (hx : x.index < index.scopes.size)
    {change : Scope → Scope} (hparent : ∀ data, (change data).parent = data.parent)
    (hnamespaces : ∀ data name inner, (name, inner) ∈ (change data).namespaces →
      (name, inner) ∈ data.namespaces ∨ inner.index < index.scopes.size) :
    (index.modifyScope x change).Nested where
  global := by simpa using h.global
  parent {z p} hp := by
    rw [scope_modify index z change hx] at hp
    split at hp
    · rename_i hzx
      rw [hparent] at hp
      exact hzx ▸ h.parent hp
    · exact h.parent hp
  namespaces {z inner name} hmem := by
    rw [scope_modify index z change hx] at hmem
    rw [Array.size_modify]
    split at hmem
    · exact (hnamespaces _ _ _ hmem).elim h.namespaces id
    · exact h.namespaces hmem
  modules z hz := by simpa using h.modules z hz

theorem Change.nested (hchange : Change M index index') (h : index.Nested) : index'.Nested := by
  cases hchange with
  | newScope name hparent =>
    refine ⟨by simp, fun {x p} hp => ?_, fun {x inner name'} hmem => ?_, fun x hx => ?_⟩
    · rw [scope_push] at hp
      split at hp
      · rename_i hx
        exact hx ▸ hparent p hp
      · exact h.parent hp
    · rw [scope_push] at hmem
      rw [Array.size_push]
      split at hmem
      · cases hmem
      · exact Nat.lt_succ_of_lt (h.namespaces hmem)
    · rw [Array.size_push]
      exact Nat.lt_succ_of_lt (h.modules x hx)
  | moduleScope hx =>
    refine { h with modules := fun z hz => ?_ }
    rcases Array.mem_push.1 hz with hz | rfl
    · exact h.modules z hz
    · exact hx
  | addNamespace hx hinner =>
    refine h.modifyScope hx (fun _ => rfl) fun data name' inner' hmem => ?_
    rcases List.mem_cons.1 hmem with heq | hmem
    · cases heq
      exact .inr hinner
    · exact .inl hmem
  | addExport hx name binding _ =>
    refine h.modifyScope hx (fun data => ?_) fun data name' inner' hmem => .inl ?_
    · split <;> rfl
    · split at hmem <;> exact hmem
  | addImport hx name binding _ => exact h.modifyScope hx (fun _ => rfl) fun _ _ _ => .inl
  | addStarExport hx module _ => exact h.modifyScope hx (fun _ => rfl) fun _ _ _ => .inl
  | @declare x name hx _ kind =>
    have hpushed : Nested { index with decls := index.decls.push ⟨name, x, kind⟩ } := { h with }
    exact hpushed.modifyScope hx (fun _ => rfl) fun _ _ _ => .inl
  | addBody | typeSite | functionSite | classSite => exact { h with }

theorem Change.size (hchange : Change M index index') : index.scopes.size ≤ index'.scopes.size := by
  cases hchange with
  | newScope => simp
  | moduleScope | addBody | typeSite | functionSite | classSite => exact Nat.le_refl _
  | addNamespace | addExport | addImport | addStarExport | declare => simp

theorem Changes.nested (hchanges : Changes M index index') (h : index.Nested) : index'.Nested := by
  induction hchanges with
  | refl => exact h
  | tail _ hchange ih => exact hchange.nested ih

theorem Changes.size (hchanges : Changes M index index') : index.scopes.size ≤ index'.scopes.size := by
  induction hchanges with
  | refl => exact Nat.le_refl _
  | tail _ hchange ih => exact Nat.le_trans ih hchange.size

end Index

/-- Whether a file has a scope of its own. -/
def ModuleFile.hasScope (file : ModuleFile) : Bool := !file.tree.isScript

open Index

namespace Binding

variable {α β : Type} {index : Index} {x : ScopeId} {name : String} {exported : Bool}
  {M : ModuleId → Prop}

/-! ## Steps of binding -/

/-- A step that makes some changes to nested scopes, and its answer. -/
def Makes (M : ModuleId → Prop) (index : Index) (step : Binding α) (Q : Index → α → Prop) : Prop :=
  index.Nested → Changes M index (step.run index).2 ∧ Q (step.run index).2 (step.run index).1

/-- A step that makes some changes to nested scopes, given a scope that there is. -/
def MakesIn (M : ModuleId → Prop) (index : Index) (x : ScopeId) (step : Binding α) : Prop :=
  x.index < index.scopes.size → Makes M index step fun _ _ => True

section

variable {first : Binding α} {Q : Index → α → Prop} {R : Index → β → Prop}

theorem Makes.done {answer : α} (hq : index.Nested → Q index answer) : Makes M index (pure answer) Q :=
  fun h => ⟨.refl, hq h⟩

theorem Makes.bind {next : α → Binding β} (h : Makes M index first Q)
    (hnext : ∀ index' answer, index.scopes.size ≤ index'.scopes.size → Q index' answer →
      Makes M index' (next answer) R) : Makes M index (first >>= next) R := by
  intro hnested
  obtain ⟨hchanges, hq⟩ := h hnested
  obtain ⟨hchanges', hr⟩ := hnext _ _ hchanges.size hq (hchanges.nested hnested)
  exact ⟨hchanges.trans hchanges', hr⟩

theorem Makes.bind_pure {f : α → β} (h : Makes M index first Q) :
    Makes M index (first >>= fun answer => pure (f answer)) fun _ _ => True :=
  h.bind fun _ _ _ _ => .done fun _ => trivial

theorem Makes.of_nested (h : index.Nested → Makes M index first Q) : Makes M index first Q :=
  fun hnested => h hnested hnested

theorem Makes.get_bind {next : Index → Binding β} (h : Makes M index (next index) R) :
    Makes M index (get >>= next) R := h

theorem Makes.single {index' : Index} {step : Binding Unit} (hrun : (step.run index).2 = index')
    (hchange : Change M index index') : Makes M index step fun _ _ => True :=
  fun _ => ⟨hrun ▸ .single hchange, trivial⟩

end

theorem addExport_makes (hx : x.index < index.scopes.size) {binding : ExportBinding}
    (hsource : ∀ g ∈ binding.source?, M g) : Makes M index (addExport x name binding) fun _ _ => True :=
  .single rfl (.addExport hx name binding hsource)

theorem addOwnExport_makes (hx : x.index < index.scopes.size) (localName : String) :
    Makes M index (addExport x name (.own localName)) fun _ _ => True :=
  addExport_makes hx fun _ hg => nomatch hg

theorem exportIf_makes (hx : x.index < index.scopes.size) :
    Makes M index (exportIf exported x name) fun _ _ => True := by
  cases exported with
  | true => exact addOwnExport_makes hx _
  | false => exact .done fun _ => trivial

theorem declare_makes (kind : TypeDeclKind) : MakesIn M index x (declare x name kind exported) := by
  intro hx
  refine (exportIf_makes hx).bind fun index' _ hsize _ => .get_bind ?_
  rcases hlook : (index'.scope x).types.lookup name with _ | id
  · exact .single rfl (.declare (Nat.lt_of_lt_of_le hx hsize) hlook kind)
  · exact .done fun _ => trivial

theorem declareInterface_makes (members : List TypeMember) :
    MakesIn M index x (declareInterface x name members exported) := by
  intro hx
  refine .get_bind ?_
  rcases hlook : (index.scope x).types.lookup name with _ | id
  · simp only [Option.bind_eq_bind, Option.bind_none]
    exact declare_makes _ hx
  · rcases hdecl : index.decls[id.index]? with _ | decl
    · simp only [hdecl, Option.bind_eq_bind, Option.bind_some, Option.bind_none]
      exact declare_makes _ hx
    · rcases hbody : decl.addBody? members with _ | decl'
      · simp only [hdecl, hbody, Option.bind_eq_bind, Option.bind_some, Option.bind_none]
        exact declare_makes _ hx
      · simp only [hdecl, hbody, Option.bind_eq_bind, Option.bind_some]
        exact (Makes.single rfl (.addBody hdecl hbody)).bind fun _ _ hsize _ =>
          exportIf_makes (Nat.lt_of_lt_of_le hx hsize)

/-- A new scope is there, under its name and in its parent. -/
theorem newScope_makes (hx : x.index < index.scopes.size) :
    Makes M index (newScope (some name) (some x)) fun index' inner =>
      inner.index < index'.scopes.size ∧ (index'.scope inner).name = some name ∧
        (index'.scope inner).parent = some x := by
  refine fun _ => ⟨.single (.newScope _ fun p hp => ?_), ?_, ?_⟩
  · obtain rfl := Option.some.inj hp
    exact hx
  · show index.scopes.size < (index.pushScope _).scopes.size
    simp
  · have hnew := scope_push index ⟨index.scopes.size⟩ (Scope.empty (some name) (some x))
    rw [if_pos rfl] at hnew
    exact ⟨congrArg Scope.name hnew, congrArg Scope.parent hnew⟩

theorem namespaceScope_makes (hx : x.index < index.scopes.size) :
    Makes M index (namespaceScope x name exported) fun index' inner =>
      inner.index < index'.scopes.size := by
  refine (exportIf_makes hx).bind fun index' _ hsize _ => .get_bind ?_
  have hx' := Nat.lt_of_lt_of_le hx hsize
  rcases hlook : (index'.scope x).namespaces.lookup name with _ | inner
  · refine (newScope_makes hx').bind fun index'' inner hsize' ⟨hinner, hname, hparent⟩ => ?_
    refine Makes.bind (.single rfl
      (.addNamespace (Nat.lt_of_lt_of_le hx' hsize') hinner hname hparent))
      fun _ _ hsize'' _ => .done fun _ => Nat.lt_of_lt_of_le hinner hsize''
  · obtain ⟨before, after, hsplit, -⟩ := List.lookup_eq_some_iff.1 hlook
    have hmem : (name, inner) ∈ (index'.scope x).namespaces := by simp [hsplit]
    exact .done fun hnested => hnested.namespaces hmem

/-! ## Sites and views -/

theorem addTypeSite_makes (hx : x.index < index.scopes.size) (type : TypeExpr) :
    Makes M index (addTypeSite x type) fun _ _ => True :=
  fun _ => ⟨.single (.typeSite hx), trivial⟩

theorem addFunctionSite_makes {site : FunctionSite} (hx : site.scope.index < index.scopes.size) :
    Makes M index (addFunctionSite site) fun _ _ => True :=
  fun _ => ⟨.single (.functionSite hx), trivial⟩

/-- What is kept for a view changes no scope. -/
def making (M : ModuleId → Prop) (x : ScopeId) : Keeping x where
  Holds step _ := ∀ index, MakesIn M index x step
  done _ _ _ := .done fun _ => trivial
  bind hfirst hnext index hx := (hfirst index hx).bind fun index' answer hsize _ =>
    hnext answer index' (Nat.lt_of_lt_of_le hx hsize)
  typeSite type _ hx := addTypeSite_makes hx type
  functionSite _ _ _ hx := addFunctionSite_makes hx

theorem mapM_makes {ι : Type} {step : ι → Binding α} (items : List ι)
    (hstep : ∀ item ∈ items, ∀ index' : Index, index.scopes.size ≤ index'.scopes.size →
      Makes M index' (step item) fun _ _ => True) :
    Makes M index (items.mapM step) fun _ _ => True := by
  induction items generalizing index with
  | nil => exact .done fun _ => trivial
  | cons item rest ih =>
    rw [List.mapM_cons]
    refine (hstep item (List.mem_cons_self ..) index (Nat.le_refl _)).bind fun _ _ hsize _ => ?_
    exact (ih fun item' hmem _ hsize' =>
      hstep item' (List.mem_cons_of_mem _ hmem) _ (Nat.le_trans hsize hsize')).bind_pure

theorem forM_makes {ι : Type} {step : ι → Binding Unit} (items : List ι)
    (hstep : ∀ item (index' : Index), index.scopes.size ≤ index'.scopes.size →
      Makes M index' (step item) fun _ _ => True) :
    Makes M index (items.forM step) fun _ _ => True := by
  induction items generalizing index with
  | nil => exact .done fun _ => trivial
  | cons item rest ih =>
    exact (hstep item index (Nat.le_refl _)).bind fun _ _ hsize _ =>
      ih fun item' _ hsize' => hstep item' _ (Nat.le_trans hsize hsize')

theorem classView_makes (name : Option String) (members : List ClassMember) (exported : Bool)
    (leading : List Comment) : Makes M index (classView name members exported leading) fun _ _ => True :=
  fun _ => ⟨.single (.classSite _), trivial⟩

/-! ## Clauses -/

section

variable {file : ModuleFile}

theorem bindImport_makes (hfile : file.Within M) (source : StringLiteral)
    (specifiers : List ImportSpecifier) : MakesIn M index x (bindImport file x source specifiers) := by
  unfold bindImport
  split
  · exact fun _ => .done fun _ => trivial
  · rename_i g hg
    refine fun hx => forM_makes specifiers fun specifier _ hsize =>
      .single rfl (.addImport (Nat.lt_of_lt_of_le hx hsize) _ _ ?_)
    cases specifier <;> exact hfile source g hg

theorem bindExportEntry_makes {source : Option ModuleId} (hsource : ∀ g ∈ source, M g)
    (specifier : ExportSpecifier) : MakesIn M index x (bindExportEntry x source specifier) := by
  intro hx
  cases specifier with
  | named original exported =>
    cases source with
    | none => exact addOwnExport_makes hx _
    | some g => exact addExport_makes hx hsource
  | all exported =>
    cases source with
    | none => exact .done fun _ => trivial
    | some g => exact addExport_makes hx hsource

theorem bindExportClause_makes (hfile : file.Within M) (item : ItemKind) :
    MakesIn M index x (bindExportClause file x item) := by
  unfold bindExportClause
  split
  · exact fun hx => forM_makes _ fun _ _ hsize =>
      bindExportEntry_makes (by simp) _ (Nat.lt_of_lt_of_le hx hsize)
  · split
    · rename_i g hg
      have hsource : ∀ g' ∈ some g, M g' := by simpa using hfile _ g hg
      exact fun hx => forM_makes _ fun _ _ hsize =>
        bindExportEntry_makes hsource _ (Nat.lt_of_lt_of_le hx hsize)
    · exact fun _ => .done fun _ => trivial
  · split
    · rename_i g hg
      exact fun hx => .single rfl (.addStarExport hx _ (hfile _ g hg))
    · exact fun _ => .done fun _ => trivial
  · exact fun _ => .done fun _ => trivial

/-! ## Items -/

omit file in
/-- The body of a namespace is bound in a scope that there is. -/
theorem enter_makes (hx : x.index < index.scopes.size) (name : NamespaceName) :
    Makes M index (enter x exported name) fun index' inner => inner.index < index'.scopes.size := by
  cases name with
  | identifier name => exact namespaceScope_makes hx
  | string name =>
    intro hnested
    obtain ⟨hchanges, hinner, -⟩ := newScope_makes hx hnested
    exact ⟨hchanges, hinner⟩
  | global => exact .done fun hnested => hnested.global

theorem act_makes (hfile : file.Within M) (act : Act) : MakesIn M index x (act.bind file x) := by
  intro hx
  cases act with
  | function _ _ _ definition => exact ((making M x).function definition index hx).bind_pure
  | declarator aliases exported declarator =>
    exact ((making M x).variableDecl exported aliases declarator index hx).bind_pure
  | classView name members exported leading =>
    exact (classView_makes name members exported leading).bind_pure
  | nominal => exact (declare_makes .nominal hx).bind_pure
  | typeAlias _ type => exact (declare_makes (.typeAlias type) hx).bind_pure
  | interface _ members => exact (declareInterface_makes members hx).bind_pure
  | exportDefault name => exact (addOwnExport_makes hx name).bind_pure
  | imports source specifiers => exact (bindImport_makes hfile source specifiers hx).bind_pure
  | clause kind => exact (bindExportClause_makes hfile kind hx).bind_pure

omit file in
/-- Whatever is bound in a scope that there is makes some changes to nested scopes. -/
def changing (M : ModuleId → Prop) : Judgement where
  Account := Unit
  Holds x _ step _ _ := ∀ {index}, MakesIn M index x step
  nothing := ()
  both _ _ := ()
  within _ _ _ := ()
  holds_nothing _ := .done fun _ => trivial
  holds_both h h' _ hx := (h hx).bind fun _ _ hsize _ => (h' (Nat.lt_of_lt_of_le hx hsize)).bind_pure
  holds_within h _ hx := (enter_makes hx _).bind fun _ inner _ hinner => (h inner inner hinner).bind_pure

def changingLedger (hfile : file.Within M) : (changing M).Ledger file file where
  ofAct _ := ()
  ofDecl _ _ _ _ := ()
  ofBody _ := ()
  ofItems _ _ := ()
  ofItem _ _ := ()
  act act _ _ _ := act_makes hfile act
  decl_acts _ := .of_eq rfl
  decl_namespaceDecl := .of_eq rfl
  body_absent := .of_eq rfl
  body_nested := .of_eq rfl
  body_items := .of_eq rfl
  items_nil := .of_eq rfl
  items_cons := .of_eq rfl
  item_acts _ := .of_eq rfl
  item_declaration := .of_eq rfl
  item_exportDecl := .of_eq rfl

theorem bindBody_changes (hfile : file.Within M) (body : NamespaceBody) :
    MakesIn M index x (bindBody file x body) :=
  (changingLedger hfile).bindBody body x x

end

/-! ## Programs -/

theorem moduleScope_run (file : ModuleFile) (index : Index) :
    ((moduleScope file).run index).2 =
      if file.hasScope then { index with
        scopes := index.scopes.push (Scope.empty none none)
        moduleScopes := index.moduleScopes.push ⟨index.scopes.size⟩ }
      else { index with moduleScopes := index.moduleScopes.push globalScope } := by
  unfold moduleScope ModuleFile.hasScope
  cases file.tree.isScript <;> rfl

theorem moduleScope_makes (file : ModuleFile) : Makes M index (moduleScope file) fun _ _ => True := by
  intro hnested
  unfold moduleScope
  split
  · exact ⟨.single (.moduleScope hnested.global), trivial⟩
  · have hparent : ∀ p ∈ (none : Option ScopeId), p.index < index.scopes.size := by simp
    refine ⟨.tail (.single (.newScope none hparent)) (.moduleScope ?_), trivial⟩
    simp

theorem bindFile_makes {file : ModuleFile} (hfile : file.Within M) (g : ModuleId) :
    Makes M index (bindFile file (index.moduleScope g)) fun _ _ => True :=
  .of_nested fun hnested =>
    (bindBody_changes hfile (.items file.tree.items) (hnested.moduleScope_lt g)).bind_pure

end Binding

/-- Binds one file of a program. -/
def Binding.bindEntry (entry : ModuleId × ModuleFile) : Binding SourceFile := do
  bindFile entry.2 ((← get).moduleScope entry.1)

namespace Modules

/-- The files in the order in which they are bound. -/
def bound (modules : Modules) : List (ModuleId × ModuleFile) :=
  modules.order.filterMap fun id => (modules.files[id.index]?).map (id, ·)

/-- The index before the first file is bound. -/
def unbound (modules : Modules) : Index :=
  ((modules.files.toList.forM Binding.moduleScope).run Index.empty).2

theorem bind_eq (modules : Modules) :
    modules.bind = (modules.bound.mapM Binding.bindEntry).run modules.unbound := rfl

/-- Files that are bound are files of the program. -/
theorem exists_of_mem_bound {modules : Modules} {entry : ModuleId × ModuleFile}
    (h : entry ∈ modules.bound) : modules.files[entry.1.index]? = some entry.2 := by
  obtain ⟨id, -, hentry⟩ := List.mem_filterMap.1 h
  obtain ⟨file, hfile, rfl⟩ := Option.map_eq_some_iff.1 hentry
  exact hfile

variable {M : ModuleId → Prop}

/-- All modules that the files refer to are of `M`. -/
def Within (modules : Modules) (M : ModuleId → Prop) : Prop :=
  ∀ (i : Nat) (file : ModuleFile), modules.files[i]? = some file → file.Within M

theorem within_true (modules : Modules) : modules.Within fun _ => True :=
  fun _ _ _ _ _ _ => trivial

open Binding in
/-- The scopes of the modules are there before the first file is bound. -/
theorem unbound_changes (modules : Modules) : Changes M Index.empty modules.unbound :=
  ((forM_makes modules.files.toList fun file _ _ => moduleScope_makes file) .empty).1

theorem unbound_nested (modules : Modules) : modules.unbound.Nested :=
  (unbound_changes modules : Changes (fun _ => True) _ _).nested .empty

open Binding in
/-- Binding the files makes some changes to the index. -/
theorem bound_changes {modules : Modules} (h : modules.Within M) :
    Changes M modules.unbound modules.bind.2 := by
  have hmakes : Makes M modules.unbound (modules.bound.mapM bindEntry) fun _ _ => True :=
    mapM_makes _ fun entry hmem _ _ =>
      .get_bind (bindFile_makes (h _ _ (exists_of_mem_bound hmem)) entry.1)
  exact (hmakes modules.unbound_nested).1

/-- The index of a program is the empty index after some changes. -/
theorem bind_changes {modules : Modules} (h : modules.Within M) :
    Changes M Index.empty modules.bind.2 :=
  (unbound_changes modules).trans (bound_changes h)

/-- The scopes of a program are nested. -/
theorem bind_nested (modules : Modules) : modules.bind.2.Nested :=
  (bind_changes modules.within_true).nested .empty

end Modules

end ComponentSchema
