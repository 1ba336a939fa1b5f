import ComponentSchema.Proofs.Binder.PairedBinding

/-!
# Twin programs

Two programs have the same modules, up to ids, in the same order. When they are bound in step, their
declarations and classes get the same ids, and so do the scopes made while they are bound; the scopes
of the modules may be swapped, and one of them may keep annotations that the other does not have.

Hypotheses. `Twins`: which modules and which scopes correspond before anything is bound. No scope
corresponds to two, and the global scope corresponds to itself.

Results.
* `Twins.pairing`: the two indices are bound in step.
* `Twins.Agree.lookup`: a name leads to the same declaration in both.
* `Twins.Agree.bind`: the views of two programs document the same.
-/
namespace ComponentSchema

open Syntax

/-- Two bodies that return the same: `=> e` and `{ return e; }`. -/
inductive Syntax.Body.SameReturns : Body → Body → Prop
  | refl (body : Body) : SameReturns body body
  | block (value : Expr) : SameReturns (.expression value) (.block [.returns (some value)])
  | expression (value : Expr) : SameReturns (.block [.returns (some value)]) (.expression value)

theorem Syntax.Body.sameReturns_refl (body : Option Body) : Option.Rel Body.SameReturns body body := by
  cases body with
  | none => exact .none
  | some body => exact .some (.refl body)

/-- Two functions that return the same where they stand. -/
structure Counterparts.SameResult (c : Counterparts) (first second : FunctionSite) : Prop where
  scope : c.scope first.scope second.scope
  body : Option.Rel Body.SameReturns first.body second.body
  wrapsResult : first.wrapsResult = second.wrapsResult

theorem Counterparts.SameResult.mono {c c' : Counterparts} (hc : c.Within c')
    {first second : FunctionSite} (h : c.SameResult first second) : c'.SameResult first second :=
  ⟨hc.scope h.scope, h.body, h.wrapsResult⟩

theorem Index.modifyScope_of_le {index : Index} {x : ScopeId} {change : Scope → Scope}
    (hx : index.scopes.size ≤ x.index) : index.modifyScope x change = index := by
  have hmodify : index.scopes.modify x.index change = index.scopes := by
    refine Array.ext_getElem? fun i => ?_
    rw [Array.getElem?_modify]
    split
    · rename_i heq
      rw [← heq, Array.getElem?_eq_none hx, Option.map_none]
    · rfl
  simp only [Index.modifyScope, hmodify]

/-- An index in which nothing is declared and nothing kept. -/
structure Index.Bare (index : Index) : Prop where
  scopes : ∀ x : ScopeId, index.scope x = Scope.empty none none
  decls : index.decls = #[]
  typeSites : index.typeSites = #[]
  functionSites : index.functionSites = #[]
  classSites : index.classSites = #[]

theorem Index.Bare.empty : Index.empty.Bare where
  scopes x := by
    obtain ⟨_ | i⟩ := x
    · rfl
    · simp [Index.scope, Index.empty]
  decls := rfl
  typeSites := rfl
  functionSites := rfl
  classSites := rfl

theorem Index.Bare.moduleScope {index : Index} (h : index.Bare) (file : ModuleFile) :
    ((Binding.moduleScope file).run index).2.Bare := by
  rw [Binding.moduleScope_run]
  split
  · refine ⟨fun x => ?_, h.decls, h.typeSites, h.functionSites, h.classSites⟩
    have hx := Index.scope_push index x (Scope.empty none none)
    rw [h.scopes x, ite_self] at hx
    exact hx
  · exact ⟨h.scopes, h.decls, h.typeSites, h.functionSites, h.classSites⟩

/-- Nothing is declared before the first file is bound. -/
theorem Modules.unbound_bare (modules : Modules) : modules.unbound.Bare := by
  have hfiles : ∀ (files : List ModuleFile) {index : Index}, index.Bare →
      ((files.forM Binding.moduleScope).run index).2.Bare := by
    intro files
    induction files with
    | nil => exact fun h => h
    | cons file rest ih => exact fun h => ih (h.moduleScope file)
  exact hfiles _ .empty

/-- What corresponds in two programs before they are bound; there are `base` scopes in each. -/
structure Twins where
  module : ModuleId → ModuleId → Prop
  own : ScopeId → ScopeId → Prop
  base : Nat
  own_lt : ∀ {x y}, own x y → x.index < base ∧ y.index < base
  own_unique : ∀ {x y x' y'}, own x y → own x' y' → (x = x' ↔ y = y')
  own_global : own globalScope globalScope

namespace Twins

/-- The annotations and functions that correspond so far. -/
structure Stage where
  node : NodeId → NodeId → Prop
  function : FunctionId → FunctionId → Prop

/-- Nothing corresponds yet. -/
def Stage.start : Stage := ⟨fun _ _ => False, fun _ _ => False⟩

/-- What corresponds stays so. -/
structure Stage.Before (n n' : Stage) : Prop where
  node : ∀ {i j}, n.node i j → n'.node i j
  function : ∀ {f g}, n.function f g → n'.function f g

/-- Two more annotations correspond. -/
def Stage.addNode (n : Stage) (i j : NodeId) : Stage :=
  { n with node := fun i' j' => n.node i' j' ∨ i' = i ∧ j' = j }

/-- Two more functions correspond. -/
def Stage.addFunction (n : Stage) (f g : FunctionId) : Stage :=
  { n with function := fun f' g' => n.function f' g' ∨ f' = f ∧ g' = g }

theorem Stage.before_addNode (n : Stage) (i j : NodeId) : n.Before (n.addNode i j) := ⟨.inl, id⟩

/-- Annotations correspond one to one when two new ones do as well. -/
theorem Stage.addNode_unique {n : Stage} {new new' : NodeId}
    (hunique : ∀ {i j i' j' : NodeId}, n.node i j → n.node i' j' → (i = i' ↔ j = j'))
    (hfresh : ∀ {i j : NodeId}, n.node i j → i ≠ new ∧ j ≠ new') {i j i' j' : NodeId}
    (hij : (n.addNode new new').node i j) (hij' : (n.addNode new new').node i' j') :
    i = i' ↔ j = j' := by
  rcases hij with hij | ⟨rfl, rfl⟩ <;> rcases hij' with hij' | ⟨rfl, rfl⟩
  · exact hunique hij hij'
  · obtain ⟨hi, hj⟩ := hfresh hij
    exact iff_of_false hi hj
  · obtain ⟨hi, hj⟩ := hfresh hij'
    exact iff_of_false hi.symm hj.symm
  · simp

theorem Stage.before_addFunction (n : Stage) (f g : FunctionId) : n.Before (n.addFunction f g) :=
  ⟨id, .inl⟩

/-- What corresponds in the two programs. -/
def counterparts (t : Twins) (n : Stage) : Counterparts where
  module := t.module
  scope x y := t.own x y ∨ x = y ∧ t.base ≤ x.index
  decl := Eq
  node := n.node
  function := n.function
  classSite := Eq

/-- The same has been bound in both programs. -/
structure Agree (t : Twins) (n : Stage) (index₁ index₂ : Index) : Prop
    extends (t.counterparts n).SameNames index₁ index₂ where
  base : t.base ≤ index₁.scopes.size
  scopesSize : index₁.scopes.size = index₂.scopes.size
  declsSize : index₁.decls.size = index₂.decls.size
  decls : ∀ i : Nat, Option.Rel (t.counterparts n).SameDecl index₁.decls[i]? index₂.decls[i]?
  nodes : ∀ {i j : NodeId}, n.node i j → ∃ site site', index₁.typeSites[i.index]? = some site ∧
    index₂.typeSites[j.index]? = some site' ∧ (t.counterparts n).SameSite site site'
  nodeUnique : ∀ {i j i' j' : NodeId}, n.node i j → n.node i' j' → (i = i' ↔ j = j')
  functions : ∀ {f g : FunctionId}, n.function f g → ∃ site site',
    index₁.functionSites[f.index]? = some site ∧ index₂.functionSites[g.index]? = some site' ∧
      (t.counterparts n).SameResult site site'
  classes : index₁.classSites = index₂.classSites

variable {t : Twins} {n n' : Stage} {index₁ index₂ : Index} {x y x' y' : ScopeId}

theorem within (t : Twins) (h : n.Before n') : (t.counterparts n).Within (t.counterparts n') where
  module := id
  scope := id
  decl := id
  node := h.node
  function := h.function
  classSite := id

theorem scopeUnique (hxy : (t.counterparts n).scope x y) (hxy' : (t.counterparts n).scope x' y') :
    x = x' ↔ y = y' := by
  have hne : ∀ {x y x' y' : ScopeId}, t.own x y → x' = y' ∧ t.base ≤ x'.index → x ≠ x' ∧ y ≠ y' := by
    rintro x y x' _ hown ⟨rfl, hbase⟩
    obtain ⟨hx, hy⟩ := t.own_lt hown
    constructor
    · rintro rfl
      omega
    · rintro rfl
      omega
  rcases hxy with hown | hnew <;> rcases hxy' with hown' | hnew'
  · exact t.own_unique hown hown'
  · obtain ⟨hx, hy⟩ := hne hown hnew'
    simp [hx, hy]
  · obtain ⟨hx, hy⟩ := hne hown' hnew
    simp [hx.symm, hy.symm]
  · rw [hnew.1, hnew'.1]

/-- Scopes that correspond are both there, or the same and both not there. -/
theorem Agree.scope_lt (h : t.Agree n index₁ index₂) (hxy : (t.counterparts n).scope x y) :
    x.index < index₁.scopes.size ∧ y.index < index₂.scopes.size ∨
      index₁.scopes.size ≤ x.index ∧ index₂.scopes.size ≤ y.index := by
  have hbase := h.base
  have hsize := h.scopesSize
  rcases hxy with hown | ⟨rfl, -⟩
  · obtain ⟨hx, hy⟩ := t.own_lt hown
    omega
  · omega

/-! ## More counterparts -/

/-- Two lists of annotations in which those that were there before stay where they are. -/
theorem Agree.withTypes (h : t.Agree n index₁ index₂) {sites₁ sites₂ : Array TypeSite}
    (h₁ : ∀ i < index₁.typeSites.size, sites₁[i]? = index₁.typeSites[i]?)
    (h₂ : ∀ i < index₂.typeSites.size, sites₂[i]? = index₂.typeSites[i]?) :
    t.Agree n { index₁ with typeSites := sites₁ } { index₂ with typeSites := sites₂ } := by
  refine { h with nodes := fun hij => ?_ }
  obtain ⟨site, site', hi, hj, hsame⟩ := h.nodes hij
  have hlt := (Array.getElem?_eq_some_iff.1 hi).1
  have hlt' := (Array.getElem?_eq_some_iff.1 hj).1
  exact ⟨site, site', (h₁ _ hlt).trans hi, (h₂ _ hlt').trans hj, hsame⟩

/-- Two lists of functions in which those that were there before stay where they are. -/
theorem Agree.withFunctions (h : t.Agree n index₁ index₂) {sites₁ sites₂ : Array FunctionSite}
    (h₁ : ∀ i < index₁.functionSites.size, sites₁[i]? = index₁.functionSites[i]?)
    (h₂ : ∀ i < index₂.functionSites.size, sites₂[i]? = index₂.functionSites[i]?) :
    t.Agree n { index₁ with functionSites := sites₁ } { index₂ with functionSites := sites₂ } := by
  refine { h with functions := fun hfg => ?_ }
  obtain ⟨site, site', hf, hg, hsame⟩ := h.functions hfg
  have hlt := (Array.getElem?_eq_some_iff.1 hf).1
  have hlt' := (Array.getElem?_eq_some_iff.1 hg).1
  exact ⟨site, site', (h₁ _ hlt).trans hf, (h₂ _ hlt').trans hg, hsame⟩

theorem getElem?_push_of_lt {α : Type} (items : Array α) (item : α) {i : Nat} (h : i < items.size) :
    (items.push item)[i]? = items[i]? := by
  rw [Array.getElem?_push, if_neg (Nat.ne_of_lt h)]

/-- An annotation that is there is not the next one. -/
theorem ne_of_getElem?_eq_some {items : Array TypeSite} {i : NodeId} {site : TypeSite}
    (h : items[i.index]? = some site) : i ≠ ⟨items.size⟩ := by
  rintro rfl
  simp at h

/-- Two annotations that were kept last correspond, if they read the same. -/
theorem Agree.pushType (h : t.Agree n index₁ index₂) {site site' : TypeSite}
    (hsame : (t.counterparts n).SameSite site site') :
    t.Agree (n.addNode ⟨index₁.typeSites.size⟩ ⟨index₂.typeSites.size⟩)
      { index₁ with typeSites := index₁.typeSites.push site }
      { index₂ with typeSites := index₂.typeSites.push site' } := by
  have hwithin := t.within (n.before_addNode ⟨index₁.typeSites.size⟩ ⟨index₂.typeSites.size⟩)
  have hpushed := h.withTypes (fun _ => getElem?_push_of_lt _ site) fun _ => getElem?_push_of_lt _ site'
  refine { hpushed with
    scopes := fun hxy => (h.scopes hxy).mono hwithin
    decls := fun i => rel_mono (fun _ _ => .mono hwithin) (h.decls i)
    nodes := ?_
    nodeUnique := Stage.addNode_unique h.nodeUnique fun hij => ?_
    functions := fun hfg => ?_ }
  · rintro i j (hij | ⟨rfl, rfl⟩)
    · obtain ⟨first, second, hi, hj, hold⟩ := hpushed.nodes hij
      exact ⟨first, second, hi, hj, hold.mono hwithin⟩
    · exact ⟨site, site', Array.getElem?_push_size, Array.getElem?_push_size, hsame.mono hwithin⟩
  · obtain ⟨_, _, hi, hj, -⟩ := h.nodes hij
    exact ⟨ne_of_getElem?_eq_some hi, ne_of_getElem?_eq_some hj⟩
  · obtain ⟨first, second, hf, hg, hold⟩ := h.functions hfg
    exact ⟨first, second, hf, hg, hold.mono hwithin⟩

/-- Two functions that were kept last correspond, if they return the same. -/
theorem Agree.pushFunction (h : t.Agree n index₁ index₂) {site site' : FunctionSite}
    (hsame : (t.counterparts n).SameResult site site') :
    t.Agree (n.addFunction ⟨index₁.functionSites.size⟩ ⟨index₂.functionSites.size⟩)
      { index₁ with functionSites := index₁.functionSites.push site }
      { index₂ with functionSites := index₂.functionSites.push site' } := by
  have hwithin :=
    t.within (n.before_addFunction ⟨index₁.functionSites.size⟩ ⟨index₂.functionSites.size⟩)
  have hpushed :=
    h.withFunctions (fun _ => getElem?_push_of_lt _ site) fun _ => getElem?_push_of_lt _ site'
  refine { hpushed with
    scopes := fun hxy => (h.scopes hxy).mono hwithin
    decls := fun i => rel_mono (fun _ _ => .mono hwithin) (h.decls i)
    nodes := fun hij => ?_
    functions := ?_ }
  · obtain ⟨first, second, hi, hj, hold⟩ := h.nodes hij
    exact ⟨first, second, hi, hj, hold.mono hwithin⟩
  · rintro f g (hfg | ⟨rfl, rfl⟩)
    · obtain ⟨first, second, hf, hg, hold⟩ := hpushed.functions hfg
      exact ⟨first, second, hf, hg, hold.mono hwithin⟩
    · exact ⟨site, site', Array.getElem?_push_size, Array.getElem?_push_size, hsame.mono hwithin⟩

/-! ## Changes of scopes and declarations -/

theorem Agree.modifyScope (h : t.Agree n index₁ index₂) (hxy : (t.counterparts n).scope x y)
    {change change' : Scope → Scope}
    (hchange : ∀ {data data'}, (t.counterparts n).SameScope data data' →
      (t.counterparts n).SameScope (change data) (change' data')) :
    t.Agree n (index₁.modifyScope x change) (index₂.modifyScope y change') := by
  refine { h with
    scopes := fun {z w} hzw => ?_
    base := by simpa using h.base
    scopesSize := by simpa using h.scopesSize }
  rcases h.scope_lt hxy with ⟨hx, hy⟩ | ⟨hx, hy⟩
  · rw [Index.scope_modify index₁ z change hx, Index.scope_modify index₂ w change' hy]
    by_cases hzx : z = x
    · rw [if_pos hzx, if_pos ((scopeUnique hzw hxy).1 hzx)]
      exact hchange (h.scopes hxy)
    · rw [if_neg hzx, if_neg fun hwy => hzx ((scopeUnique hzw hxy).2 hwy)]
      exact h.scopes hzw
  · rw [Index.modifyScope_of_le hx, Index.modifyScope_of_le hy]
    exact h.scopes hzw

theorem Agree.newScope (h : t.Agree n index₁ index₂) (hxy : (t.counterparts n).scope x y)
    (name : Option String) : t.Agree n (index₁.pushScope (Scope.empty name (some x)))
      (index₂.pushScope (Scope.empty name (some y))) := by
  have hbase := h.base
  have hsize := h.scopesSize
  refine { h with scopes := fun {z w} hzw => ?_, base := ?_, scopesSize := ?_ }
  · rw [Index.scope_push, Index.scope_push]
    have hiff : z.index = index₁.scopes.size ↔ w.index = index₂.scopes.size := by
      rcases hzw with hown | ⟨rfl, -⟩
      · have := t.own_lt hown
        omega
      · omega
    by_cases hz : z.index = index₁.scopes.size
    · rw [if_pos hz, if_pos (hiff.1 hz)]
      exact .empty (.some hxy)
    · rw [if_neg hz, if_neg (mt hiff.2 hz)]
      exact h.scopes hzw
  · simp only [Array.size_push]
    omega
  · simp only [Array.size_push]
    omega

theorem Agree.pushDecl (h : t.Agree n index₁ index₂) (hxy : (t.counterparts n).scope x y)
    (name : String) (kind : TypeDeclKind) :
    t.Agree n { index₁ with decls := index₁.decls.push ⟨name, x, kind⟩ }
      { index₂ with decls := index₂.decls.push ⟨name, y, kind⟩ } := by
  have hsize := h.declsSize
  refine { h with declsSize := by simpa using hsize, decls := fun i => ?_ }
  rw [Array.getElem?_push, Array.getElem?_push, ← hsize]
  split
  · exact .some ⟨rfl, hxy, rfl⟩
  · exact h.decls i

theorem Agree.setDecl (h : t.Agree n index₁ index₂) (i : Nat) {decl decl' : TypeDecl}
    (hdecl : (t.counterparts n).SameDecl decl decl') :
    t.Agree n { index₁ with decls := index₁.decls.modify i fun _ => decl }
      { index₂ with decls := index₂.decls.modify i fun _ => decl' } := by
  refine { h with declsSize := by simpa using h.declsSize, decls := fun j => ?_ }
  rw [Array.getElem?_modify, Array.getElem?_modify]
  split
  · rcases rel_cases (h.decls j) with ⟨hx, hy⟩ | ⟨first, second, hx, hy, -⟩
    · rw [hx, hy]
      exact .none
    · rw [hx, hy]
      exact .some hdecl
  · exact h.decls j

theorem Agree.pushClass (h : t.Agree n index₁ index₂) (site : ClassSite) :
    t.Agree n { index₁ with classSites := index₁.classSites.push site }
      { index₂ with classSites := index₂.classSites.push site } :=
  { h with classes := congrArg (Array.push · site) h.classes }

/-- The two indices are bound in step. -/
def pairing (t : Twins) : Pairing where
  Stage := Stage
  Before := Stage.Before
  before_refl _ := ⟨id, id⟩
  before_trans h h' := ⟨fun hij => h'.node (h.node hij), fun hfg => h'.function (h.function hfg)⟩
  module := t.module
  counterparts := t.counterparts
  module_counterparts hm := hm
  within := t.within
  Agree := t.Agree
  scopes h hxy := h.scopes hxy
  decls h hde := hde ▸ h.decls _
  modifyScope h hxy hchange _ _ := h.modifyScope hxy hchange
  newScope h hxy name :=
    ⟨_, ⟨id, id⟩, h.newScope hxy name, .inr ⟨congrArg ScopeId.mk h.scopesSize, h.base⟩⟩
  pushDecl h hxy name kind :=
    ⟨_, ⟨id, id⟩, h.pushDecl hxy name kind, congrArg DeclId.mk h.declsSize⟩
  setDecl h hde hdecl := hde ▸ h.setDecl _ hdecl
  pushType h hxy _ := ⟨_, Stage.before_addNode .., h.pushType ⟨hxy, rfl⟩, .inr ⟨rfl, rfl⟩⟩
  pushFunction h hxy body _ :=
    ⟨_, Stage.before_addFunction .., h.pushFunction ⟨hxy, Body.sameReturns_refl body, rfl⟩,
      .inr ⟨rfl, rfl⟩⟩
  pushClass h site :=
    ⟨_, ⟨id, id⟩, h.pushClass site, congrArg ClassId.mk (congrArg Array.size h.classes)⟩

theorem sharesGlobal (t : Twins) : t.pairing.SharesGlobal := fun _ => .inl t.own_global

/-! ## Names -/

/-- A name leads to the same declaration in both programs. -/
theorem Agree.lookup (h : t.Agree n index₁ index₂) (hxy : (t.counterparts n).scope x y)
    (segments : List String) : index₁.lookup x segments = index₂.lookup y segments := by
  have hglobal : (t.counterparts n).scope globalScope globalScope := .inl t.own_global
  have hchain := h.enclosing hxy index₁.scopes.size
  have hunique : Relator.BiUnique (t.counterparts n).scope :=
    ⟨fun _ _ _ h h' => (scopeUnique h h').2 rfl, fun _ _ _ h h' => (scopeUnique h h').1 rfl⟩
  have hmem := List.rel_mem hunique hglobal hchain
  have horder : List.Forall₂ (t.counterparts n).scope (index₁.searchOrder x)
      (index₂.searchOrder y) := by
    unfold Index.searchOrder
    rw [← h.scopesSize]
    by_cases hin : globalScope ∈ index₁.enclosing index₁.scopes.size x
    · rw [if_pos hin, if_pos (hmem.1 hin)]
      exact hchain
    · rw [if_neg hin, if_neg (mt hmem.2 hin)]
      exact List.rel_append hchain (.cons hglobal .nil)
  have hfound := findSome?_rel (S := Eq) horder fun _ _ hr => h.lookupIn exportBudget hr segments
  rcases rel_cases hfound with ⟨hx, hy⟩ | ⟨d, e, hx, hy, hde⟩
  · rw [Index.lookup, Index.lookup, hx, hy]
  · rw [Index.lookup, Index.lookup, hx, hy, hde]

/-! ## Programs -/

/-- Two programs may be bound in step if their modules have scopes that correspond. -/
theorem Agree.start (t : Twins) (hbare₁ : index₁.Bare) (hbare₂ : index₂.Bare)
    (hsize₁ : index₁.scopes.size = t.base) (hsize₂ : index₂.scopes.size = t.base)
    (hmodules : ∀ {g h}, t.module g h → t.own (index₁.moduleScope g) (index₂.moduleScope h)) :
    t.Agree Stage.start index₁ index₂ where
  scopes {x y} _ := by
    rw [hbare₁.scopes, hbare₂.scopes]
    exact .empty .none
  modules hm := .inl (hmodules hm)
  base := Nat.le_of_eq hsize₁.symm
  scopesSize := hsize₁.trans hsize₂.symm
  declsSize := by rw [hbare₁.decls, hbare₂.decls]
  decls i := by
    rw [hbare₁.decls, hbare₂.decls]
    exact .none
  nodes h := h.elim
  nodeUnique h := h.elim
  functions h := h.elim
  classes := by rw [hbare₁.classSites, hbare₂.classSites]

/-- Two files that are bound alike, wherever they are bound in step. -/
structure SameBinding (t : Twins) (P : String → String → Prop) (first second : ModuleFile) : Prop where
  path : P first.path.text second.path.text
  items : ∀ {n : Stage} {index₁ index₂ : Index} {x y : ScopeId}, t.Agree n index₁ index₂ →
    (t.counterparts n).scope x y → t.pairing.BothShow n index₁ index₂
      (Binding.bindBody first x (.items first.tree.items))
      (Binding.bindBody second y (.items second.tree.items))

theorem bindEntries_both {P : String → String → Prop} {entries entries' : List (ModuleId × ModuleFile)}
    (h : t.Agree n index₁ index₂) (hentries : List.Forall₂ (fun first second =>
      t.module first.1 second.1 ∧ t.SameBinding P first.2 second.2) entries entries') :
    t.pairing.Both n index₁ index₂ (entries.mapM Binding.bindEntry) (entries'.mapM Binding.bindEntry)
      fun n' views views' => List.Forall₂ ((t.counterparts n').SameFileView P) views views' := by
  induction hentries generalizing n index₁ index₂ with
  | nil => exact .done h .nil
  | @cons first second rest rest' hfirst _ ih =>
    obtain ⟨hmodule, hpath, hitems⟩ := hfirst
    rw [List.mapM_cons, List.mapM_cons]
    have hfile : t.pairing.Both n index₁ index₂ (Binding.bindEntry first) (Binding.bindEntry second)
        fun n' view view' => (t.counterparts n').SameFileView P view view' :=
      Pairing.Both.get_bind ((hitems h (h.modules hmodule)).bind
        fun _ _ _ _ _ _ h' hviews => .done h' ⟨hpath, hviews⟩)
    refine hfile.bind fun n₁ _ _ _ _ _ h₁ hview => ?_
    refine (ih h₁).bind fun n₂ _ _ _ _ hn₂ h₂ hviews => .done h₂ ?_
    exact .cons ⟨hview.path, hview.declarations.mono (t.within hn₂)⟩ hviews

/-- Programs whose files are bound alike, in the same order, have views that document the same. -/
theorem Agree.bind {modules₁ modules₂ : Modules} {P : String → String → Prop}
    (hstart : t.Agree Stage.start modules₁.unbound modules₂.unbound)
    (hbound : List.Forall₂ (fun first second =>
      t.module first.1 second.1 ∧ t.SameBinding P first.2 second.2) modules₁.bound modules₂.bound) :
    ∃ n, t.Agree n modules₁.bind.2 modules₂.bind.2 ∧
      List.Forall₂ ((t.counterparts n).SameFileView P) modules₁.bind.1 modules₂.bind.1 := by
  obtain ⟨n, -, hagree, hviews⟩ := bindEntries_both hstart hbound
  exact ⟨n, hagree, hviews⟩

end Twins

end ComponentSchema
