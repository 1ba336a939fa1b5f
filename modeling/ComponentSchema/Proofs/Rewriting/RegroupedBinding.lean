import ComponentSchema.Proofs.Comparison.RestatedDocuments

/-!
# Binding regrouped types

Two files that are the same but for parentheses in types are bound in step: scopes, declarations and
classes get the same ids. The annotations do not. The view of a function type shows the annotations
inside it, and so they are kept one by one, but one in parentheses is kept as a whole.

`Regroups` relates a step on one side to one on the other. A stage (`Twins.Stage`) tells which annotations
and which functions correspond so far.

Results.
* `OnScopes.regroups`: a step that reads and changes scopes only does the same on both sides.
* `typeNode_regroups`: of two annotations that were regrouped, the ones around them correspond.
* `function_regroups`: in two functions that were regrouped the same is looked at.
* `Regrouped.restates`: the two indexes restate each other.
-/
namespace ComponentSchema

open Syntax

/-! ## Functions -/

/-- Two parameters whose annotations were regrouped. Default values are not looked at, nor is the text of
an annotation. -/
structure Syntax.Parameter.Regrouped (first second : Syntax.Parameter) : Prop where
  name : first.name = second.name
  written : RegroupedAnnotation (first.written.map (·.type)) (second.written.map (·.type))

/-- Two functions in which types were regrouped. -/
structure Syntax.Function.Regrouped (first second : Function) : Prop where
  parameters : List.Forall₂ Parameter.Regrouped first.parameters second.parameters
  returnType : RegroupedAnnotation first.returnType second.returnType
  body : Option.Rel Body.Regrouped first.body second.body
  isAsync : first.isAsync = second.isAsync
  isGenerator : first.isGenerator = second.isGenerator

/-- Whether an annotation is a function type, not in parentheses. -/
def Syntax.TypeExpr.isFunction : TypeExpr → Bool
  | .function _ _ => true
  | _ => false

/-- Two annotations of which both spell out a signature or neither does. -/
inductive Syntax.TypeExpr.SameCallee : TypeExpr → TypeExpr → Prop
  | function {parameters parameters' : List TypeParameter} {returnType returnType' : TypeExpr} :
    RegroupedParameters parameters parameters' → returnType.Regrouped returnType' →
      SameCallee (.function parameters returnType) (.function parameters' returnType')
  | value {type type' : TypeExpr} : type.isFunction = false → type'.isFunction = false →
    type.Regrouped type' → SameCallee type type'

theorem Syntax.Function.regrouped_refl (definition : Function) : definition.Regrouped definition where
  parameters := List.forall₂_same.2 fun _ _ => ⟨rfl, .refl _⟩
  returnType := .refl _
  body := by
    cases definition.body with
    | none => exact .none
    | some body => exact .some (Body.regrouped_of_returned_eq rfl)
  isAsync := rfl
  isGenerator := rfl

theorem Syntax.TypeExpr.sameCallee_refl (type : TypeExpr) : type.SameCallee type := by
  cases type with
  | function parameters returnType =>
    exact .function (regroupedParameters_refl parameters) returnType.regrouped_refl
  | _ => exact .value rfl rfl (TypeExpr.regrouped_refl _)

/-! ## Indexes -/

namespace Twins.Stage

variable {n n' n'' : Stage}

theorem Before.refl (n : Stage) : n.Before n := ⟨id, id⟩

theorem Before.trans (h : n.Before n') (h' : n'.Before n'') : n.Before n'' :=
  ⟨h'.node ∘ h.node, h'.function ∘ h.function⟩

/-- Annotations and functions correspond by a stage, and all else has the same ids. -/
def counterparts (n : Stage) : Counterparts where
  module := Eq
  scope := Eq
  decl := Eq
  node := n.node
  function := n.function
  classSite := Eq

theorem Before.within (h : n.Before n') : n.counterparts.Within n'.counterparts :=
  ⟨id, id, id, h.node, h.function, id⟩

end Twins.Stage

open Twins (Stage)

namespace Twins.Stage

variable {n n' : Stage}

/-- Two annotations that correspond, or none. -/
def SameTyping (n : Stage) : Option TypeNode → Option TypeNode → Prop :=
  Option.Rel fun node node' => n.node node.id node'.id

/-- Parameters whose annotations correspond. -/
def SameParameters (n : Stage) : List Parameter → List Parameter → Prop :=
  List.Forall₂ fun first second => n.SameTyping first.typeNode second.typeNode

theorem SameTyping.mono (hn : n.Before n') {node node' : Option TypeNode} (h : n.SameTyping node node') :
    n'.SameTyping node node' := rel_mono (fun _ _ => hn.node) h

theorem SameParameters.mono (hn : n.Before n') {views views' : List Parameter}
    (h : n.SameParameters views views') : n'.SameParameters views views' :=
  h.imp fun _ _ => .mono hn

theorem SameParameters.props {views views' : List Parameter} (h : n.SameParameters views views') :
    n.SameTyping (views.head?.bind (·.typeNode)) (views'.head?.bind (·.typeNode)) := by
  cases h with
  | nil => exact .none
  | cons hfirst _ => exact hfirst

end Twins.Stage

/-- Two indexes that are the same but for parentheses in types, and for the ids of annotations and
functions. -/
structure Index.Regrouped (n : Stage) (index₁ index₂ : Index) : Prop where
  scopes : index₁.scopes = index₂.scopes
  moduleScopes : index₁.moduleScopes = index₂.moduleScopes
  classSites : index₁.classSites = index₂.classSites
  declsSize : index₁.decls.size = index₂.decls.size
  decls : ∀ i : Nat, Option.Rel n.counterparts.LikeDecl index₁.decls[i]? index₂.decls[i]?
  nodes : ∀ {i j : NodeId}, n.node i j → ∃ site site', index₁.typeSites[i.index]? = some site ∧
    index₂.typeSites[j.index]? = some site' ∧ n.counterparts.LikeSite site site'
  nodeUnique : ∀ {i j i' j' : NodeId}, n.node i j → n.node i' j' → (i = i' ↔ j = j')
  functions : ∀ {f g : FunctionId}, n.function f g → ∃ site site',
    index₁.functionSites[f.index]? = some site ∧ index₂.functionSites[g.index]? = some site' ∧
      n.counterparts.LikeFunction site site'

/-- In the second index some more annotations and functions are kept. -/
def Index.Collects (index index' : Index) : Prop :=
  ∃ (types : Array TypeSite) (functions : Array FunctionSite), index' = { index with
    typeSites := index.typeSites ++ types
    functionSites := index.functionSites ++ functions }

namespace Index

variable {n : Stage} {index index' index'' index₁ index₂ index₁' index₂' : Index}

theorem Collects.refl (index : Index) : Collects index index := ⟨#[], #[], by simp⟩

theorem Collects.trans (h : Collects index index') (h' : Collects index' index'') :
    Collects index index'' := by
  obtain ⟨types, functions, rfl⟩ := h
  obtain ⟨types', functions', rfl⟩ := h'
  exact ⟨types ++ types', functions ++ functions', by simp [Array.append_assoc]⟩

theorem Collects.pushType (index : Index) (site : TypeSite) :
    Collects index { index with typeSites := index.typeSites.push site } :=
  ⟨#[site], #[], by simp⟩

theorem Collects.pushFunction (index : Index) (site : FunctionSite) :
    Collects index { index with functionSites := index.functionSites.push site } :=
  ⟨#[], #[site], by simp⟩

theorem getElem?_append_of_some {α : Type} {items : Array α} {item : α} {i : Nat} (h : items[i]? = some item)
    (more : Array α) : (items ++ more)[i]? = some item := by
  rw [Array.getElem?_append_left (Array.getElem?_eq_some_iff.1 h).1, h]

namespace Regrouped

variable (h : Regrouped n index₁ index₂)
include h

/-- What is kept besides does not matter. -/
theorem collect (hcollects₁ : Collects index₁ index₁') (hcollects₂ : Collects index₂ index₂') :
    Regrouped n index₁' index₂' := by
  obtain ⟨types, functions, rfl⟩ := hcollects₁
  obtain ⟨types', functions', rfl⟩ := hcollects₂
  refine { h with nodes := fun hij => ?_, functions := fun hfg => ?_ }
  · obtain ⟨site, site', hi, hj, hsite⟩ := h.nodes hij
    exact ⟨site, site', getElem?_append_of_some hi _, getElem?_append_of_some hj _, hsite⟩
  · obtain ⟨site, site', hf, hg, hsite⟩ := h.functions hfg
    exact ⟨site, site', getElem?_append_of_some hf _, getElem?_append_of_some hg _, hsite⟩

/-- At a later stage, at which more annotations and functions correspond. -/
theorem later {n' : Stage} (hn : n.Before n')
    (hnodes : ∀ {i j : NodeId}, n'.node i j → n.node i j ∨ ∃ site site',
      index₁.typeSites[i.index]? = some site ∧ index₂.typeSites[j.index]? = some site' ∧
        n'.counterparts.LikeSite site site')
    (hunique : ∀ {i j i' j' : NodeId}, n'.node i j → n'.node i' j' → (i = i' ↔ j = j'))
    (hfunctions : ∀ {f g : FunctionId}, n'.function f g → n.function f g ∨ ∃ site site',
      index₁.functionSites[f.index]? = some site ∧ index₂.functionSites[g.index]? = some site' ∧
        n'.counterparts.LikeFunction site site') : Regrouped n' index₁ index₂ where
  scopes := h.scopes
  moduleScopes := h.moduleScopes
  classSites := h.classSites
  declsSize := h.declsSize
  decls i := rel_mono (fun _ _ => .mono hn.within) (h.decls i)
  nodes hij := by
    rcases hnodes hij with hold | hnew
    · obtain ⟨site, site', hi, hj, hsite⟩ := h.nodes hold
      exact ⟨site, site', hi, hj, hsite.mono hn.within⟩
    · exact hnew
  nodeUnique := hunique
  functions hfg := by
    rcases hfunctions hfg with hold | hnew
    · obtain ⟨site, site', hf, hg, hsite⟩ := h.functions hold
      exact ⟨site, site', hf, hg, hsite.mono hn.within⟩
    · exact hnew

/-- Two annotations that were kept last correspond, if the one was regrouped. -/
theorem pushType {site site' : TypeSite} (hsite : n.counterparts.LikeSite site site') :
    Regrouped (n.addNode ⟨index₁.typeSites.size⟩ ⟨index₂.typeSites.size⟩)
      { index₁ with typeSites := index₁.typeSites.push site }
      { index₂ with typeSites := index₂.typeSites.push site' } := by
  have hbefore := n.before_addNode ⟨index₁.typeSites.size⟩ ⟨index₂.typeSites.size⟩
  refine (h.collect (.pushType index₁ site) (.pushType index₂ site')).later hbefore ?_
    (Stage.addNode_unique h.nodeUnique fun hij => ?_) .inl
  · rintro i j (hij | ⟨rfl, rfl⟩)
    · exact .inl hij
    · exact .inr ⟨site, site', Array.getElem?_push_size, Array.getElem?_push_size,
        hsite.mono hbefore.within⟩
  · obtain ⟨_, _, hi, hj, -⟩ := h.nodes hij
    exact ⟨Twins.ne_of_getElem?_eq_some hi, Twins.ne_of_getElem?_eq_some hj⟩

/-- Two functions that were kept last correspond, if types in the one were regrouped. -/
theorem pushFunction {site site' : FunctionSite} (hsite : n.counterparts.LikeFunction site site') :
    Regrouped (n.addFunction ⟨index₁.functionSites.size⟩ ⟨index₂.functionSites.size⟩)
      { index₁ with functionSites := index₁.functionSites.push site }
      { index₂ with functionSites := index₂.functionSites.push site' } := by
  have hbefore := n.before_addFunction ⟨index₁.functionSites.size⟩ ⟨index₂.functionSites.size⟩
  refine (h.collect (.pushFunction index₁ site) (.pushFunction index₂ site')).later hbefore .inl
    h.nodeUnique ?_
  rintro f g (hfg | ⟨rfl, rfl⟩)
  · exact .inl hfg
  · exact .inr ⟨site, site', Array.getElem?_push_size, Array.getElem?_push_size,
      hsite.mono hbefore.within⟩

theorem pushDecl {decl decl' : TypeDecl} (hdecl : n.counterparts.LikeDecl decl decl') :
    Regrouped n { index₁ with decls := index₁.decls.push decl }
      { index₂ with decls := index₂.decls.push decl' } := by
  refine { h with declsSize := by simpa using h.declsSize, decls := fun i => ?_ }
  rw [Array.getElem?_push, Array.getElem?_push, ← h.declsSize]
  split
  · exact .some hdecl
  · exact h.decls i

theorem setDecl (i : Nat) {decl decl' : TypeDecl} (hdecl : n.counterparts.LikeDecl decl decl') :
    Regrouped n { index₁ with decls := index₁.decls.modify i fun _ => decl }
      { index₂ with decls := index₂.decls.modify i fun _ => decl' } := by
  refine { h with declsSize := by simpa using h.declsSize, decls := fun j => ?_ }
  rw [Array.getElem?_modify, Array.getElem?_modify]
  split
  · rcases rel_cases (h.decls j) with ⟨hx, hy⟩ | ⟨_, _, hx, hy, -⟩
    · rw [hx, hy]
      exact .none
    · rw [hx, hy]
      exact .some hdecl
  · exact h.decls j

theorem modifyScope (x : ScopeId) (change : Scope → Scope) :
    Regrouped n (index₁.modifyScope x change) (index₂.modifyScope x change) :=
  { h with scopes := congrArg (·.modify x.index change) h.scopes }

theorem scope_eq (x : ScopeId) : index₁.scope x = index₂.scope x := by
  rw [Index.scope, Index.scope, h.scopes]

end Regrouped

/-- An index before anything in it was regrouped. -/
theorem Regrouped.start (index : Index) : Regrouped Stage.start index index where
  scopes := rfl
  moduleScopes := rfl
  classSites := rfl
  declsSize := rfl
  decls i := by
    cases index.decls[i]? with
    | none => exact .none
    | some decl => exact .some ⟨rfl, rfl, TypeDeclKind.regrouped_refl _⟩
  nodes h := h.elim
  nodeUnique h := h.elim
  functions h := h.elim

end Index

/-! ## Steps -/

namespace Binding

open Index

variable {α β γ δ : Type} {n : Stage} {index index₁ index₂ : Index} {x : ScopeId} {name : String}
  {exported : Bool}

/-- A step on one side and one on the other, between indexes that are the same but for parentheses. -/
def Regroups (n : Stage) (index₁ index₂ : Index) (first : Binding α) (second : Binding β)
    (Q : Stage → α → β → Prop) : Prop :=
  ∃ n', n.Before n' ∧ Regrouped n' (first.run index₁).2 (second.run index₂).2 ∧
    Q n' (first.run index₁).1 (second.run index₂).1

namespace Regroups

variable {first : Binding α} {second : Binding β} {Q : Stage → α → β → Prop}

theorem done {answer : α} {answer' : β} (h : Regrouped n index₁ index₂) (hq : Q n answer answer') :
    Regroups n index₁ index₂ (pure answer) (pure answer') Q := ⟨n, .refl n, h, hq⟩

theorem bind {next : α → Binding γ} {next' : β → Binding δ} {R : Stage → γ → δ → Prop}
    (h : Regroups n index₁ index₂ first second Q)
    (hnext : ∀ n' index₁' index₂' answer answer', n.Before n' → Regrouped n' index₁' index₂' →
      Q n' answer answer' → Regroups n' index₁' index₂' (next answer) (next' answer') R) :
    Regroups n index₁ index₂ (first >>= next) (second >>= next') R := by
  obtain ⟨n', hn, h', hq⟩ := h
  obtain ⟨n'', hn', h'', hr⟩ := hnext _ _ _ _ _ hn h' hq
  exact ⟨n'', hn.trans hn', h'', hr⟩

theorem imp {R : Stage → α → β → Prop} (h : Regroups n index₁ index₂ first second Q)
    (himp : ∀ n' answer answer', Q n' answer answer' → R n' answer answer') :
    Regroups n index₁ index₂ first second R := by
  obtain ⟨n', hn, h', hq⟩ := h
  exact ⟨n', hn, h', himp _ _ _ hq⟩

theorem map {f : α → γ} {g : β → δ} {R : Stage → γ → δ → Prop}
    (h : Regroups n index₁ index₂ first second Q)
    (himp : ∀ n' answer answer', Q n' answer answer' → R n' (f answer) (g answer')) :
    Regroups n index₁ index₂ (f <$> first) (g <$> second) R := by
  obtain ⟨n', hn, h', hq⟩ := h
  exact ⟨n', hn, h', himp _ _ _ hq⟩

theorem get_bind {next : Index → Binding α} {next' : Index → Binding β}
    (h : Regroups n index₁ index₂ (next index₁) (next' index₂) Q) :
    Regroups n index₁ index₂ (get >>= next) (get >>= next') Q := h

end Regroups

/-! ## Scopes -/

/-- A step that reads and changes scopes only. -/
def OnScopes (step : Binding α) : Prop :=
  ∀ scopes : Array Scope, ∃ answer scopes', ∀ index : Index, index.scopes = scopes →
    step.run index = (answer, { index with scopes := scopes' })

namespace OnScopes

theorem done (answer : α) : OnScopes (pure answer) := fun scopes => ⟨answer, scopes, by rintro _ rfl; rfl⟩

theorem bind {first : Binding α} {next : α → Binding β} (h : OnScopes first)
    (hnext : ∀ answer, OnScopes (next answer)) : OnScopes (first >>= next) := by
  intro scopes
  obtain ⟨answer, scopes', hrun⟩ := h scopes
  obtain ⟨answer', scopes'', hrun'⟩ := hnext answer scopes'
  refine ⟨answer', scopes'', fun index hscopes => ?_⟩
  rw [StateT.run_bind, hrun index hscopes]
  exact hrun' _ rfl

theorem get_scope (x : ScopeId) {next : Index → Binding α}
    (h : ∀ data, ∃ step, OnScopes step ∧ ∀ index : Index, index.scope x = data → next index = step) :
    OnScopes (get >>= next) := by
  intro scopes
  obtain ⟨step, hstep, hnext⟩ := h ((scopes[x.index]?).getD (Scope.empty none none))
  obtain ⟨answer, scopes', hrun⟩ := hstep scopes
  refine ⟨answer, scopes', fun index hscopes => ?_⟩
  rw [← hrun index hscopes, ← hnext index (by rw [← hscopes]; rfl)]
  rfl

theorem forM {ι : Type} {step : ι → Binding Unit} (items : List ι) (h : ∀ item, OnScopes (step item)) :
    OnScopes (items.forM step) := by
  induction items with
  | nil => exact .done ()
  | cons item rest ih => exact (h item).bind fun _ => ih

theorem modifyScope (x : ScopeId) (change : Scope → Scope) : OnScopes (Binding.modifyScope x change) :=
  fun scopes => ⟨(), scopes.modify x.index change, by rintro _ rfl; rfl⟩

theorem newScope (name : Option String) (parent : Option ScopeId) : OnScopes (Binding.newScope name parent) :=
  fun scopes => ⟨⟨scopes.size⟩, scopes.push (Scope.empty name parent), by rintro _ rfl; rfl⟩

theorem exportIf (exported : Bool) (x : ScopeId) (name : String) :
    OnScopes (Binding.exportIf exported x name) := by
  cases exported with
  | true => exact .modifyScope x _
  | false => exact .done ()

theorem namespaceScope (x : ScopeId) (name : String) (exported : Bool) :
    OnScopes (Binding.namespaceScope x name exported) := by
  refine (OnScopes.exportIf exported x name).bind fun _ => .get_scope x fun data => ?_
  rcases hlook : data.namespaces.lookup name with _ | inner
  · refine ⟨_, (OnScopes.newScope (some name) (some x)).bind fun inner =>
      (OnScopes.modifyScope x fun data => { data with namespaces := (name, inner) :: data.namespaces }).bind
        fun _ => .done inner, fun index hdata => ?_⟩
    rw [hdata, hlook]
  · refine ⟨_, .done inner, fun index hdata => ?_⟩
    rw [hdata, hlook]

theorem enter (x : ScopeId) (exported : Bool) (name : NamespaceName) :
    OnScopes (Binding.enter x exported name) := by
  cases name with
  | identifier name => exact .namespaceScope x name exported
  | string name => exact .newScope (some name) (some x)
  | global => exact .done globalScope

theorem bindImport (file : ModuleFile) (x : ScopeId) (source : StringLiteral)
    (specifiers : List ImportSpecifier) : OnScopes (Binding.bindImport file x source specifiers) := by
  unfold Binding.bindImport
  split
  · exact .done ()
  · exact .forM specifiers fun _ => .modifyScope x _

theorem bindExportEntry (x : ScopeId) (source : Option ModuleId) (specifier : ExportSpecifier) :
    OnScopes (Binding.bindExportEntry x source specifier) := by
  cases specifier with
  | named => exact .modifyScope x _
  | all =>
    cases source with
    | none => exact .done ()
    | some => exact .modifyScope x _

theorem bindExportClause (file : ModuleFile) (x : ScopeId) (kind : ItemKind) :
    OnScopes (Binding.bindExportClause file x kind) := by
  unfold Binding.bindExportClause
  split
  · exact .forM _ fun _ => .bindExportEntry x _ _
  · split
    · exact .forM _ fun _ => .bindExportEntry x _ _
    · exact .done ()
  · split
    · exact .modifyScope x _
    · exact .done ()
  · exact .done ()

/-- Such a step does the same on both sides. -/
theorem regroups {step : Binding α} (h : OnScopes step) (hindex : Regrouped n index₁ index₂) :
    Regroups n index₁ index₂ step step fun _ => Eq := by
  obtain ⟨answer, scopes, hrun⟩ := h index₁.scopes
  unfold Regroups
  rw [hrun index₁ rfl, hrun index₂ hindex.scopes.symm]
  exact ⟨n, .refl n, { hindex with scopes := rfl }, rfl⟩

end OnScopes

/-! ## Declarations -/

theorem declare_regroups (h : Regrouped n index₁ index₂) {kind kind' : TypeDeclKind}
    (hkind : kind.Regrouped kind') : Regroups n index₁ index₂ (declare x name kind exported)
      (declare x name kind' exported) fun _ _ _ => True := by
  refine ((OnScopes.exportIf exported x name).regroups h).bind fun n₁ index₁' index₂' _ _ _ h₁ _ =>
    .get_bind ?_
  rw [← h₁.scope_eq x]
  cases (index₁'.scope x).types.lookup name with
  | some => exact .done h₁ trivial
  | none =>
    have hdecl : n₁.counterparts.LikeDecl ⟨name, x, kind⟩ ⟨name, x, kind'⟩ := ⟨rfl, rfl, hkind⟩
    rw [← h₁.declsSize]
    refine ⟨n₁, .refl n₁, ?_, trivial⟩
    exact (h₁.pushDecl hdecl).modifyScope x fun data =>
      { data with types := (name, ⟨index₁'.decls.size⟩) :: data.types }

theorem addBody?_regrouped {c : Counterparts} {decl decl' : TypeDecl} (h : c.LikeDecl decl decl')
    {members members' : List TypeMember} (hmembers : RegroupedMembers members members') :
    Option.Rel c.LikeDecl (decl.addBody? members) (decl'.addBody? members') := by
  obtain ⟨name, scope, kind⟩ := decl
  obtain ⟨name', scope', kind'⟩ := decl'
  obtain ⟨hname, hscope, hkind⟩ := h
  cases hkind with
  | interface hbodies =>
    refine .some ⟨hname, hscope, .interface ?_⟩
    simpa using hbodies.append hmembers
  | typeAlias | nominal => exact .none

theorem declareInterface_regroups (h : Regrouped n index₁ index₂) {members members' : List TypeMember}
    (hmembers : RegroupedMembers members members') : Regroups n index₁ index₂
      (declareInterface x name members exported) (declareInterface x name members' exported)
      fun _ _ _ => True := by
  have hdeclare : Regroups n index₁ index₂ (declare x name (.interface [members]) exported)
      (declare x name (.interface [members']) exported) fun _ _ _ => True :=
    declare_regroups h (.interface (by simpa using hmembers))
  refine .get_bind ?_
  rw [← h.scope_eq x]
  rcases (index₁.scope x).types.lookup name with _ | d
  · simpa only [Option.bind_eq_bind, Option.bind_none] using hdeclare
  · rcases rel_cases (h.decls d.index) with ⟨hfirst, hsecond⟩ | ⟨first, second, hfirst, hsecond, hsame⟩
    · simpa only [hfirst, hsecond, Option.bind_eq_bind, Option.bind_some, Option.bind_none] using hdeclare
    · rcases rel_cases (addBody?_regrouped hsame hmembers) with ⟨hf, hs⟩ | ⟨decl, decl', hf, hs, hdecl⟩
      · simpa only [hfirst, hsecond, hf, hs, Option.bind_eq_bind, Option.bind_some, Option.bind_none]
          using hdeclare
      · simp only [hfirst, hsecond, hf, hs, Option.bind_eq_bind, Option.bind_some]
        exact ((OnScopes.exportIf exported x name).regroups (h.setDecl d.index hdecl)).imp
          fun _ _ _ _ => trivial

/-! ## Annotations -/

mutual

/-- An annotation is kept, and after it the annotations inside it that the view shows. -/
theorem typeNode_collects : ∀ (type : TypeExpr) (index : Index),
    ((typeNode x type).run index).1.id = ⟨index.typeSites.size⟩ ∧
      Collects { index with typeSites := index.typeSites.push ⟨x, type⟩ } ((typeNode x type).run index).2
  | .reference _, index | .keyword _, index | .parenthesized _, index | .literal _, index | .union _, index
  | .intersection _, index | .constructor, index | .other, index => by
    simp only [typeNode]
    exact ⟨rfl, .refl _⟩
  | .function parameters returnType, index => by
    simp only [typeNode]
    refine ⟨rfl, (Collects.pushFunction _ ⟨x, none, false⟩).trans ?_⟩
    refine (typeParameters_collects parameters 0 _).trans ?_
    exact (Collects.pushType _ ⟨x, returnType⟩).trans (typeNode_collects returnType _).2

theorem typeParameters_collects : ∀ (parameters : List TypeParameter) (position : Nat) (index : Index),
    Collects index ((typeParameters x position parameters).run index).2
  | [], position, index => by
    simp only [typeParameters]
    exact .refl index
  | ⟨name, none⟩ :: rest, position, index => by
    simp only [typeParameters]
    exact typeParameters_collects rest (position + 1) index
  | ⟨name, some type⟩ :: rest, position, index => by
    simp only [typeParameters]
    refine ((Collects.pushType index ⟨x, type⟩).trans (typeNode_collects type index).2).trans ?_
    exact typeParameters_collects rest (position + 1) _

end

theorem function?_typeNode {type : TypeExpr} (h : type.isFunction = false) (index : Index) :
    ((typeNode x type).run index).1.function? = none := by
  cases type with
  | function => cases h
  | _ =>
    simp only [typeNode]
    rfl

/-- Of two annotations that were regrouped, those around them correspond. -/
theorem typeNode_regroups (h : Regrouped n index₁ index₂) {type type' : TypeExpr}
    (htype : type.Regrouped type') : Regroups n index₁ index₂ (typeNode x type) (typeNode x type')
      fun n' node node' => n'.node node.id node'.id := by
  obtain ⟨hid, hcollects⟩ := typeNode_collects (x := x) type index₁
  obtain ⟨hid', hcollects'⟩ := typeNode_collects (x := x) type' index₂
  have hsite : n.counterparts.LikeSite ⟨x, type⟩ ⟨x, type'⟩ := ⟨rfl, htype⟩
  exact ⟨_, n.before_addNode _ _, (h.pushType hsite).collect hcollects hcollects', .inr ⟨hid, hid'⟩⟩

theorem maybeTypeNode_regroups (h : Regrouped n index₁ index₂) {type type' : Option TypeExpr}
    (htype : RegroupedAnnotation type type') : Regroups n index₁ index₂ (maybeTypeNode x type)
      (maybeTypeNode x type') fun n' => n'.SameTyping := by
  cases htype with
  | none => exact .done h .none
  | some htype => exact (typeNode_regroups h htype).map fun _ _ _ hid => .some hid

/-! ## Functions -/

theorem typeParameters_regroups : ∀ {parameters parameters' : List TypeParameter},
    RegroupedParameters parameters parameters' → ∀ (position : Nat) {n : Stage} {index₁ index₂ : Index},
      Regrouped n index₁ index₂ → Regroups n index₁ index₂ (typeParameters x position parameters)
        (typeParameters x position parameters') fun n' => n'.SameParameters
  | _, _, .nil, position, n, index₁, index₂, h => by
    simp only [typeParameters]
    exact .done h .nil
  | _, _, .cons .none hrest, position, n, index₁, index₂, h => by
    simp only [typeParameters]
    exact (typeParameters_regroups hrest (position + 1) h).bind
      fun _ _ _ _ _ _ h' hviews => .done h' (.cons .none hviews)
  | _, _, .cons (.some htype) hrest, position, n, index₁, index₂, h => by
    simp only [typeParameters]
    refine (typeNode_regroups h htype).bind fun _ _ _ _ _ _ h₁ hnode => ?_
    exact (typeParameters_regroups hrest (position + 1) h₁).bind
      fun _ _ _ _ _ hn h' hviews => .done h' (.cons (.some (hn.node hnode)) hviews)

theorem functionParameters_regroups {parameters parameters' : List Syntax.Parameter}
    (hparameters : List.Forall₂ Parameter.Regrouped parameters parameters') (position : Nat)
    (h : Regrouped n index₁ index₂) : Regroups n index₁ index₂ (functionParameters x position parameters)
      (functionParameters x position parameters') fun n' => n'.SameParameters := by
  induction hparameters generalizing n index₁ index₂ position with
  | nil => exact .done h .nil
  | cons hparameter _ ih =>
    refine (maybeTypeNode_regroups h hparameter.written).bind fun _ _ _ _ _ _ h₁ hnode => ?_
    exact (ih (position + 1) h₁).bind
      fun _ _ _ _ _ hn h' hviews => .done h' (.cons (hnode.mono hn) hviews)

/-- In two functions that were regrouped the same is looked at. -/
theorem function_regroups (h : Regrouped n index₁ index₂) {definition definition' : Function}
    (hdefinition : definition.Regrouped definition') : Regroups n index₁ index₂ (function x definition)
      (function x definition') fun n' => n'.counterparts.LikeSignature := by
  obtain ⟨hparameters, hreturn, hbody, hasync, hgenerator⟩ := hdefinition
  have hsite : n.counterparts.LikeFunction
      ⟨x, definition.body, definition.isAsync || definition.isGenerator⟩
      ⟨x, definition'.body, definition'.isAsync || definition'.isGenerator⟩ :=
    ⟨rfl, hbody, by rw [hasync, hgenerator]⟩
  have hkept : Regroups n index₁ index₂
      (addFunctionSite ⟨x, definition.body, definition.isAsync || definition.isGenerator⟩)
      (addFunctionSite ⟨x, definition'.body, definition'.isAsync || definition'.isGenerator⟩)
      fun n' f g => n'.function f g :=
    ⟨_, n.before_addFunction _ _, h.pushFunction hsite, .inr ⟨rfl, rfl⟩⟩
  refine hkept.bind fun _ _ _ _ _ _ h₁ hid => ?_
  refine (functionParameters_regroups hparameters 0 h₁).bind fun _ _ _ _ _ hn₁ h₂ hviews => ?_
  exact (maybeTypeNode_regroups h₂ hreturn).bind fun _ _ _ _ _ hn₂ h₃ hnode =>
    .done h₃ ⟨fun _ => hn₂.function (hn₁.function hid), hnode, (hviews.mono hn₂).props⟩

/-- Of two annotations that spell out signatures, the same is looked at in the signatures. -/
theorem typeNode_sameCallee (h : Regrouped n index₁ index₂) {type type' : TypeExpr}
    (htype : type.SameCallee type') : Regroups n index₁ index₂ (typeNode x type) (typeNode x type')
      fun n' node node' => Option.Rel n'.counterparts.LikeSignature node.function? node'.function? := by
  cases htype with
  | value hfirst hsecond htype =>
    obtain ⟨n', hn, h', -⟩ := typeNode_regroups (x := x) h htype
    refine ⟨n', hn, h', ?_⟩
    show Option.Rel n'.counterparts.LikeSignature _ _
    rw [function?_typeNode hfirst, function?_typeNode hsecond]
    exact .none
  | @function parameters parameters' returnType returnType' hparameters hreturn =>
    simp only [typeNode]
    have htyped : n.counterparts.LikeSite ⟨x, .function parameters returnType⟩
        ⟨x, .function parameters' returnType'⟩ := ⟨rfl, .function hparameters hreturn⟩
    have hkept : Regroups n index₁ index₂ (addTypeSite x (.function parameters returnType))
        (addTypeSite x (.function parameters' returnType')) fun _ _ _ => True :=
      ⟨_, n.before_addNode _ _, h.pushType htyped, trivial⟩
    refine hkept.bind fun n₁ index₁' index₂' _ _ _ h₁ _ => ?_
    have hsite : n₁.counterparts.LikeFunction ⟨x, none, false⟩ ⟨x, none, false⟩ := ⟨rfl, .none, rfl⟩
    have hfunction : Regroups n₁ index₁' index₂' (addFunctionSite ⟨x, none, false⟩)
        (addFunctionSite ⟨x, none, false⟩) fun _ _ _ => True :=
      ⟨_, n₁.before_addFunction _ _, h₁.pushFunction hsite, trivial⟩
    refine hfunction.bind fun _ _ _ _ _ _ h₂ _ => ?_
    refine (typeParameters_regroups hparameters 0 h₂).bind fun _ _ _ _ _ _ h₃ hviews => ?_
    exact (typeNode_regroups h₃ hreturn).bind fun _ _ _ _ _ hn h₄ hnode => .done h₄ <|
      .some ⟨(fun hnone => nomatch hnone), .some hnode, (hviews.mono hn).props⟩

end Binding

/-! ## Programs -/

namespace Index.Regrouped

variable {n : Stage} {index₁ index₂ : Index} (h : Regrouped n index₁ index₂)
include h

theorem aliases : index₁.decls.countP Program.isAlias = index₂.decls.countP Program.isAlias := by
  have hkinds : index₁.decls.map Program.isAlias = index₂.decls.map Program.isAlias := by
    refine Array.ext_getElem? fun i => ?_
    rw [Array.getElem?_map, Array.getElem?_map]
    rcases rel_cases (h.decls i) with ⟨hx, hy⟩ | ⟨⟨_, _, kind⟩, ⟨_, _, kind'⟩, hx, hy, hdecl⟩
    · rw [hx, hy]
    · rw [hx, hy, Option.map_some, Option.map_some]
      obtain ⟨-, -, hkind⟩ := hdecl
      cases hkind <;> rfl
  have hcount : ∀ decls : Array TypeDecl,
      decls.countP Program.isAlias = (decls.map Program.isAlias).countP id := by
    intro decls
    rw [Array.countP_map]
    rfl
  rw [hcount, hcount, hkinds]

/-- The two indexes restate each other. -/
theorem restates : n.counterparts.Restates index₁ index₂ where
  name {x y} hxy := by
    obtain rfl : x = y := hxy
    rw [h.scope_eq]
  lookup {x y} hxy segments := by
    obtain rfl : x = y := hxy
    have hscopes : index₁.SameScopes index₂ := ⟨h.scopes.symm, h.moduleScopes.symm⟩
    rw [hscopes.lookup_eq]
    cases index₁.lookup x segments with
    | none => exact .none
    | some => exact .some rfl
  decls {d e} hde := by
    obtain rfl : d = e := hde
    exact h.decls d.index
  declUnique {d e d' e'} hde hde' := by
    obtain rfl : d = e := hde
    obtain rfl : d' = e' := hde'
    exact Iff.rfl
  declsSize := h.declsSize
  aliases := h.aliases
  nodes hij := by
    obtain ⟨site, site', hi, hj, hsite⟩ := h.nodes hij
    rw [hi, hj]
    exact .some hsite
  nodeUnique := h.nodeUnique
  functions hfg := by
    obtain ⟨site, site', hf, hg, hsite⟩ := h.functions hfg
    rw [hf, hg]
    exact .some hsite
  classes {a b} hab := by
    obtain rfl : a = b := hab
    rw [h.classSites]

end Index.Regrouped

end ComponentSchema
