import ComponentSchema.Program.Scopes
import Mathlib.Data.List.Forall2
import Mathlib.Data.Option.Defs

/-!
# Counterparts

Two programs that share files bind them under other ids. What is made from the same source in both
are counterparts: scopes, declarations, annotations of the view and functions. Here it is stated what
it means that counterparts hold the same but for their ids, and that names lead to counterparts then.

Hypothesis. `Alike`: counterparts hold the same, every scope stands after those around it, and
nothing is global.

Results.
* `SameScope.mono` and its like: what is the same stays so when there are more counterparts.
* `LikeNames.lookupIn`, `LikeNames.lookupExport`: a name leads to counterparts in counterparts.
* `Alike.lookup`: a name leads to counterparts from counterparts, outward through the scopes.
* `SameScopes.lookup_eq`: in the same scopes, it leads to the same declaration.
-/
namespace ComponentSchema

open Syntax

/-- What two programs have in common. -/
structure Counterparts where
  module : ModuleId → ModuleId → Prop
  scope : ScopeId → ScopeId → Prop
  decl : DeclId → DeclId → Prop
  node : NodeId → NodeId → Prop
  function : FunctionId → FunctionId → Prop
  classSite : ClassId → ClassId → Prop

/-- Counterparts by `c` are counterparts by `c'`. -/
structure Counterparts.Within (c c' : Counterparts) : Prop where
  module : ∀ {g h}, c.module g h → c'.module g h
  scope : ∀ {x y}, c.scope x y → c'.scope x y
  decl : ∀ {d e}, c.decl d e → c'.decl d e
  node : ∀ {n m}, c.node n m → c'.node n m
  function : ∀ {f g}, c.function f g → c'.function f g
  classSite : ∀ {a b}, c.classSite a b → c'.classSite a b

/-- Two lists with the same keys in the same order. -/
def SameEntries {α β : Type} (R : α → β → Prop) : List (String × α) → List (String × β) → Prop :=
  List.Forall₂ fun first second => first.1 = second.1 ∧ R first.2 second.2

section

variable {α β γ δ : Type} {R R' : α → β → Prop} {S : γ → δ → Prop}

theorem rel_cases {a : Option α} {b : Option β} (h : Option.Rel R a b) :
    (a = none ∧ b = none) ∨ ∃ x y, a = some x ∧ b = some y ∧ R x y := by
  cases h with
  | none => exact .inl ⟨rfl, rfl⟩
  | some hr => exact .inr ⟨_, _, rfl, rfl, hr⟩

theorem rel_mono (hR : ∀ x y, R x y → R' x y) {a : Option α} {b : Option β} (h : Option.Rel R a b) :
    Option.Rel R' a b := by
  cases h with
  | none => exact .none
  | some hr => exact .some (hR _ _ hr)

theorem SameEntries.mono (hR : ∀ x y, R x y → R' x y) {entries : List (String × α)}
    {entries' : List (String × β)} (h : SameEntries R entries entries') :
    SameEntries R' entries entries' :=
  h.imp fun _ _ ⟨hkey, hr⟩ => ⟨hkey, hR _ _ hr⟩

theorem SameEntries.lookup {entries : List (String × α)} {entries' : List (String × β)}
    (h : SameEntries R entries entries') (key : String) :
    Option.Rel R (entries.lookup key) (entries'.lookup key) := by
  induction h with
  | nil => exact .none
  | @cons first second rest rest' hfirst _ ih =>
    obtain ⟨name, value⟩ := first
    obtain ⟨name', value'⟩ := second
    obtain ⟨rfl, hvalue⟩ := hfirst
    rw [List.lookup_cons, List.lookup_cons]
    cases key == name with
    | true => exact .some hvalue
    | false => exact ih

theorem findSome?_rel {xs : List α} {ys : List β} {f : α → Option γ} {g : β → Option δ}
    (h : List.Forall₂ R xs ys) (hfg : ∀ x y, R x y → Option.Rel S (f x) (g y)) :
    Option.Rel S (xs.findSome? f) (ys.findSome? g) := by
  induction h with
  | nil => exact .none
  | @cons x y _ _ hxy _ ih =>
    rw [List.findSome?_cons, List.findSome?_cons]
    rcases rel_cases (hfg x y hxy) with ⟨hx, hy⟩ | ⟨a, b, hx, hy, hr⟩
    · rw [hx, hy]
      exact ih
    · rw [hx, hy]
      exact .some hr

end

namespace Counterparts

variable (c : Counterparts)

/-! ## Scopes, declarations and sites -/

/-- Two imports of the same. -/
inductive SameImport : ImportBinding → ImportBinding → Prop where
  | named {g h : ModuleId} {name : String} (hm : c.module g h) :
    SameImport (.named g name) (.named h name)
  | all {g h : ModuleId} (hm : c.module g h) : SameImport (.all g) (.all h)

/-- Two exports of the same. -/
inductive SameExport : ExportBinding → ExportBinding → Prop where
  | own {name : String} : SameExport (.own name) (.own name)
  | reexport {g h : ModuleId} {name : String} (hm : c.module g h) :
    SameExport (.reexport g name) (.reexport h name)
  | all {g h : ModuleId} (hm : c.module g h) : SameExport (.all g) (.all h)

/-- Two scopes that hold the same. -/
structure SameScope (first second : Scope) : Prop where
  name : first.name = second.name
  parent : Option.Rel c.scope first.parent second.parent
  types : SameEntries c.decl first.types second.types
  namespaces : SameEntries c.scope first.namespaces second.namespaces
  imports : SameEntries c.SameImport first.imports second.imports
  exports : SameEntries c.SameExport first.exports second.exports
  starExports : List.Forall₂ c.module first.starExports second.starExports

/-- Two scopes in which the same is found under every name. -/
structure LikeScope (first second : Scope) : Prop where
  name : first.name = second.name
  parent : Option.Rel c.scope first.parent second.parent
  types : ∀ key, Option.Rel c.decl (first.types.lookup key) (second.types.lookup key)
  namespaces : ∀ key, Option.Rel c.scope (first.namespaces.lookup key) (second.namespaces.lookup key)
  imports : ∀ key, Option.Rel c.SameImport (first.imports.lookup key) (second.imports.lookup key)
  exports : ∀ key, Option.Rel c.SameExport (first.exports.lookup key) (second.exports.lookup key)
  starExports : List.Forall₂ c.module first.starExports second.starExports

/-- Two declarations of the same. -/
structure SameDecl (first second : TypeDecl) : Prop where
  name : first.name = second.name
  scope : c.scope first.scope second.scope
  kind : first.kind = second.kind

/-- Two annotations that read the same. -/
structure SameSite (first second : TypeSite) : Prop where
  scope : c.scope first.scope second.scope
  type : first.type = second.type

/-- Two functions that read the same. -/
structure SameFunction (first second : FunctionSite) : Prop where
  scope : c.scope first.scope second.scope
  body : first.body = second.body
  wrapsResult : first.wrapsResult = second.wrapsResult

section

variable {c} {c' : Counterparts}

theorem SameImport.mono (hc : c.Within c') {first second : ImportBinding}
    (h : c.SameImport first second) : c'.SameImport first second := by
  cases h with
  | named hm => exact .named (hc.module hm)
  | all hm => exact .all (hc.module hm)

theorem SameExport.mono (hc : c.Within c') {first second : ExportBinding}
    (h : c.SameExport first second) : c'.SameExport first second := by
  cases h with
  | own => exact .own
  | reexport hm => exact .reexport (hc.module hm)
  | all hm => exact .all (hc.module hm)

theorem SameScope.mono (hc : c.Within c') {first second : Scope} (h : c.SameScope first second) :
    c'.SameScope first second where
  name := h.name
  parent := rel_mono (fun _ _ => hc.scope) h.parent
  types := h.types.mono fun _ _ => hc.decl
  namespaces := h.namespaces.mono fun _ _ => hc.scope
  imports := h.imports.mono fun _ _ => SameImport.mono hc
  exports := h.exports.mono fun _ _ => SameExport.mono hc
  starExports := h.starExports.imp fun _ _ => hc.module

theorem SameScope.empty {name : Option String} {parent parent' : Option ScopeId}
    (h : Option.Rel c.scope parent parent') :
    c.SameScope (Scope.empty name parent) (Scope.empty name parent') :=
  ⟨rfl, h, .nil, .nil, .nil, .nil, .nil⟩

theorem SameScope.like {first second : Scope} (h : c.SameScope first second) :
    c.LikeScope first second :=
  ⟨h.name, h.parent, h.types.lookup, h.namespaces.lookup, h.imports.lookup, h.exports.lookup,
    h.starExports⟩

theorem SameDecl.mono (hc : c.Within c') {first second : TypeDecl} (h : c.SameDecl first second) :
    c'.SameDecl first second :=
  ⟨h.name, hc.scope h.scope, h.kind⟩

theorem SameSite.mono (hc : c.Within c') {first second : TypeSite} (h : c.SameSite first second) :
    c'.SameSite first second :=
  ⟨hc.scope h.scope, h.type⟩

theorem SameFunction.mono (hc : c.Within c') {first second : FunctionSite}
    (h : c.SameFunction first second) : c'.SameFunction first second :=
  ⟨hc.scope h.scope, h.body, h.wrapsResult⟩

end

/-! ## Alike programs -/

/-- Scopes and modules that are counterparts hold the same names. -/
structure SameNames (index₁ index₂ : Index) : Prop where
  scopes : ∀ {x y : ScopeId}, c.scope x y → c.SameScope (index₁.scope x) (index₂.scope y)
  modules : ∀ {g h : ModuleId}, c.module g h → c.scope (index₁.moduleScope g) (index₂.moduleScope h)

/-- Scopes and modules that are counterparts hold the same under every name. -/
structure LikeNames (index₁ index₂ : Index) : Prop where
  scopes : ∀ {x y : ScopeId}, c.scope x y → c.LikeScope (index₁.scope x) (index₂.scope y)
  modules : ∀ {g h : ModuleId}, c.module g h → c.scope (index₁.moduleScope g) (index₂.moduleScope h)

/-- Counterparts hold the same, and nothing is the counterpart of two. -/
structure Alike (index₁ index₂ : Index) : Prop extends c.SameNames index₁ index₂ where
  decls : ∀ {d e : DeclId}, c.decl d e →
    Option.Rel c.SameDecl index₁.decls[d.index]? index₂.decls[e.index]?
  sites : ∀ {n m : NodeId}, c.node n m →
    Option.Rel c.SameSite index₁.typeSites[n.index]? index₂.typeSites[m.index]?
  functions : ∀ {f g : FunctionId}, c.function f g →
    Option.Rel c.SameFunction index₁.functionSites[f.index]? index₂.functionSites[g.index]?
  below₁ : ∀ {x y : ScopeId}, c.scope x y → x.index < index₁.scopes.size ∧
    ∀ parent, (index₁.scope x).parent = some parent → parent.index < x.index
  below₂ : ∀ {x y : ScopeId}, c.scope x y → y.index < index₂.scopes.size ∧
    ∀ parent, (index₂.scope y).parent = some parent → parent.index < y.index
  global₁ : index₁.scope globalScope = Scope.empty none none
  global₂ : index₂.scope globalScope = Scope.empty none none
  notGlobal : ∀ {x y : ScopeId}, c.scope x y → x ≠ globalScope ∧ y ≠ globalScope
  scopeUnique : ∀ {x y x' y' : ScopeId}, c.scope x y → c.scope x' y' → (x = x' ↔ y = y')
  declUnique : ∀ {d e d' e' : DeclId}, c.decl d e → c.decl d' e' → (d = d' ↔ e = e')
  nodeUnique : ∀ {n m n' m' : NodeId}, c.node n m → c.node n' m' → (n = n' ↔ m = m')

end Counterparts

namespace Counterparts.LikeNames

variable {c : Counterparts} {index₁ index₂ : Index} {x y : ScopeId} {g h : ModuleId}

/-! ## Names -/

theorem lookupQualified (hlike : c.LikeNames index₁ index₂) (hxy : c.scope x y) (segments : List String) :
    Option.Rel c.decl (index₁.lookupQualified x segments) (index₂.lookupQualified y segments) := by
  induction segments generalizing x y with
  | nil => exact .none
  | cons name rest ih =>
    rcases rest with _ | ⟨next, rest⟩
    · exact (hlike.scopes hxy).types name
    · simp only [Index.lookupQualified]
      rcases rel_cases ((hlike.scopes hxy).namespaces name) with
        ⟨hx, hy⟩ | ⟨inner, inner', hx, hy, hinner⟩
      · rw [hx, hy]
        exact .none
      · rw [hx, hy]
        exact ih hinner

theorem lookupDeclared (hlike : c.LikeNames index₁ index₂) (hxy : c.scope x y) (segments : List String) :
    Option.Rel c.decl (index₁.lookupDeclared x segments) (index₂.lookupDeclared y segments) := by
  rw [Index.lookupDeclared_eq, Index.lookupDeclared_eq]
  exact hlike.lookupQualified hxy segments

mutual

theorem lookupIn (hlike : c.LikeNames index₁ index₂) : ∀ (budget : Nat) {x y : ScopeId}, c.scope x y →
    ∀ segments, Option.Rel c.decl (index₁.lookupIn budget x segments)
      (index₂.lookupIn budget y segments)
  | 0, _, _, hxy, segments => by
    simp only [Index.lookupIn]
    exact hlike.lookupDeclared hxy segments
  | budget + 1, x, y, hxy, segments => by
    simp only [Index.lookupIn]
    rcases rel_cases (hlike.lookupDeclared hxy segments) with ⟨hx, hy⟩ | ⟨d, e, hx, hy, hd⟩
    · rw [hx, hy]
      rcases segments with _ | ⟨first, rest⟩
      · exact .none
      · simp only
        rcases rel_cases ((hlike.scopes hxy).imports first) with
          ⟨hx, hy⟩ | ⟨binding, binding', hx, hy, hbinding⟩
        · rw [hx, hy]
          exact .none
        · rw [hx, hy]
          cases hbinding with
          | named hm => exact lookupExport hlike budget hm _ rest
          | all hm =>
            rcases rest with _ | ⟨name, rest⟩
            · exact .none
            · exact lookupExport hlike budget hm name rest
    · rw [hx, hy]
      exact .some hd

theorem lookupExport (hlike : c.LikeNames index₁ index₂) : ∀ (budget : Nat) {g h : ModuleId},
    c.module g h → ∀ (name : String) (rest : List String),
      Option.Rel c.decl (index₁.lookupExport budget g name rest)
        (index₂.lookupExport budget h name rest)
  | 0, _, _, _, _, _ => by
    simp only [Index.lookupExport]
    exact .none
  | budget + 1, g, h, hm, name, rest => by
    have hxy := hlike.modules hm
    simp only [Index.lookupExport]
    rcases rel_cases ((hlike.scopes hxy).exports name) with
      ⟨hx, hy⟩ | ⟨binding, binding', hx, hy, hbinding⟩
    · rw [hx, hy]
      exact findSome?_rel (hlike.scopes hxy).starExports fun _ _ hstar =>
        lookupExport hlike budget hstar name rest
    · rw [hx, hy]
      cases hbinding with
      | own => exact lookupIn hlike budget hxy _
      | reexport hm => exact lookupExport hlike budget hm _ rest
      | all hm =>
        rcases rest with _ | ⟨name, rest⟩
        · exact .none
        · exact lookupExport hlike budget hm name rest

end

theorem enclosing (hlike : c.LikeNames index₁ index₂) (hxy : c.scope x y) (steps : Nat) :
    List.Forall₂ c.scope (index₁.enclosing steps x) (index₂.enclosing steps y) := by
  induction steps generalizing x y with
  | zero => exact .nil
  | succ steps ih =>
    rw [Index.enclosing, Index.enclosing]
    rcases rel_cases (hlike.scopes hxy).parent with ⟨hx, hy⟩ | ⟨parent, parent', hx, hy, hparent⟩
    · rw [hx, hy]
      exact .cons hxy .nil
    · rw [hx, hy]
      exact .cons hxy (ih hparent)

end Counterparts.LikeNames

namespace Counterparts.SameNames

variable {c : Counterparts} {index₁ index₂ : Index} {x y : ScopeId}

theorem like (hsame : c.SameNames index₁ index₂) : c.LikeNames index₁ index₂ :=
  ⟨fun hxy => (hsame.scopes hxy).like, hsame.modules⟩

theorem lookupIn (hsame : c.SameNames index₁ index₂) (budget : Nat) (hxy : c.scope x y)
    (segments : List String) : Option.Rel c.decl (index₁.lookupIn budget x segments)
      (index₂.lookupIn budget y segments) :=
  hsame.like.lookupIn budget hxy segments

theorem enclosing (hsame : c.SameNames index₁ index₂) (hxy : c.scope x y) (steps : Nat) :
    List.Forall₂ c.scope (index₁.enclosing steps x) (index₂.enclosing steps y) :=
  hsame.like.enclosing hxy steps

end Counterparts.SameNames

namespace Counterparts.Alike

variable {c : Counterparts} {index₁ index₂ : Index} {x y : ScopeId}

/-- The scopes around a scope are all found. -/
theorem enclosing_eq {index : Index} (scope : ScopeId → Prop)
    (hfalls : ∀ x, scope x → ∀ parent, (index.scope x).parent = some parent →
      scope parent ∧ parent.index < x.index) {steps steps' : Nat} (hx : scope x)
    (h : x.index < steps) (h' : x.index < steps') :
    index.enclosing steps x = index.enclosing steps' x := by
  induction steps generalizing steps' x with
  | zero => omega
  | succ steps ih =>
    obtain ⟨steps', rfl⟩ : ∃ rest, steps' = rest + 1 := ⟨steps' - 1, by omega⟩
    rw [Index.enclosing, Index.enclosing]
    rcases hparent : (index.scope x).parent with _ | parent
    · rfl
    · obtain ⟨hscope, hlt⟩ := hfalls x hx parent hparent
      exact congrArg (x :: ·) (ih hscope (by omega) (by omega))

theorem searchOrder (halike : c.Alike index₁ index₂) (hxy : c.scope x y) :
    ∃ chain chain', index₁.searchOrder x = chain ++ [globalScope] ∧
      index₂.searchOrder y = chain' ++ [globalScope] ∧ List.Forall₂ c.scope chain chain' := by
  have hsize₁ : index₁.enclosing index₁.scopes.size x =
      index₁.enclosing (index₁.scopes.size + index₂.scopes.size) x := by
    have hx := (halike.below₁ hxy).1
    refine enclosing_eq (fun x => ∃ y, c.scope x y) ?_ ⟨y, hxy⟩ hx (by omega)
    rintro x ⟨y, hxy⟩ parent hparent
    refine ⟨?_, (halike.below₁ hxy).2 parent hparent⟩
    rcases rel_cases (halike.scopes hxy).parent with ⟨hx, -⟩ | ⟨first, second, hx, -, hr⟩
    · rw [hparent] at hx
      cases hx
    · obtain rfl := Option.some.inj (hparent.symm.trans hx)
      exact ⟨second, hr⟩
  have hsize₂ : index₂.enclosing index₂.scopes.size y =
      index₂.enclosing (index₁.scopes.size + index₂.scopes.size) y := by
    have hy := (halike.below₂ hxy).1
    refine enclosing_eq (fun y => ∃ x, c.scope x y) ?_ ⟨x, hxy⟩ hy (by omega)
    rintro y ⟨x, hxy⟩ parent hparent
    refine ⟨?_, (halike.below₂ hxy).2 parent hparent⟩
    rcases rel_cases (halike.scopes hxy).parent with ⟨-, hy⟩ | ⟨first, second, -, hy, hr⟩
    · rw [hparent] at hy
      cases hy
    · obtain rfl := Option.some.inj (hparent.symm.trans hy)
      exact ⟨first, hr⟩
  have hchain := halike.enclosing hxy (index₁.scopes.size + index₂.scopes.size)
  rw [← hsize₁, ← hsize₂] at hchain
  have hglobal : ∀ {chain chain' : List ScopeId}, List.Forall₂ c.scope chain chain' →
      globalScope ∉ chain ∧ globalScope ∉ chain' := by
    intro chain chain' h
    induction h with
    | nil => simp
    | cons hr _ ih =>
      obtain ⟨hx, hy⟩ := halike.notGlobal hr
      simp [ih.1, ih.2, hx.symm, hy.symm]
  obtain ⟨hout, hout'⟩ := hglobal hchain
  refine ⟨_, _, ?_, ?_, hchain⟩
  · simp only [Index.searchOrder, if_neg hout]
  · simp only [Index.searchOrder, if_neg hout']

theorem lookupIn_empty {index : Index} (h : index.scope x = Scope.empty none none) (budget : Nat)
    (segments : List String) : index.lookupIn budget x segments = none := by
  have hdeclared : index.lookupDeclared x segments = none := by
    rcases segments with _ | ⟨name, _ | ⟨next, rest⟩⟩
    · rfl
    · rw [Index.lookupDeclared, h]
      rfl
    · simp [Index.lookupDeclared, h, Scope.empty]
  cases budget with
  | zero =>
    simp only [Index.lookupIn]
    exact hdeclared
  | succ budget =>
    simp only [Index.lookupIn, hdeclared]
    cases segments with
    | nil => rfl
    | cons first rest => simp [h, Scope.empty]

/-- A name leads to counterparts from counterparts. -/
theorem lookup (halike : c.Alike index₁ index₂) (hxy : c.scope x y) (segments : List String) :
    Option.Rel c.decl (index₁.lookup x segments) (index₂.lookup y segments) := by
  obtain ⟨chain, chain', hchain, hchain', hsame⟩ := halike.searchOrder hxy
  unfold Index.lookup
  rw [hchain, hchain', List.findSome?_append, List.findSome?_append]
  have hglobal₁ := lookupIn_empty halike.global₁ exportBudget segments
  have hglobal₂ := lookupIn_empty halike.global₂ exportBudget segments
  simp only [List.findSome?_singleton, hglobal₁, hglobal₂, Option.or_none]
  exact findSome?_rel hsame fun _ _ hr => halike.lookupIn exportBudget hr segments

end Counterparts.Alike

/-! ## The same scopes -/

theorem sameEntries_self {α : Type} {R : α → α → Prop} {entries : List (String × α)}
    (h : ∀ entry ∈ entries, R entry.2 entry.2) : SameEntries R entries entries :=
  List.forall₂_same.2 fun entry hentry => ⟨rfl, h entry hentry⟩

/-- Two indexes with the same scopes. -/
structure Index.SameScopes (index index' : Index) : Prop where
  scopes : index'.scopes = index.scopes
  moduleScopes : index'.moduleScopes = index.moduleScopes

namespace Index.SameScopes

variable {index index' : Index} (h : index.SameScopes index')
include h

theorem scope_eq (x : ScopeId) : index'.scope x = index.scope x := by
  rw [Index.scope, Index.scope, h.scopes]

/-- Every scope and declaration is its own counterpart. -/
theorem sameNames : Counterparts.SameNames ⟨Eq, Eq, Eq, Eq, Eq, Eq⟩ index index' where
  scopes := by
    rintro x _ rfl
    rw [h.scope_eq]
    refine ⟨rfl, ?_, sameEntries_self fun _ _ => rfl, sameEntries_self fun _ _ => rfl,
      sameEntries_self fun entry _ => ?_, sameEntries_self fun entry _ => ?_,
      List.forall₂_same.2 fun _ _ => rfl⟩
    · cases (index.scope x).parent with
      | none => exact .none
      | some parent => exact .some rfl
    · cases entry.2 with
      | named => exact .named rfl
      | all => exact .all rfl
    · cases entry.2 with
      | own => exact .own
      | reexport => exact .reexport rfl
      | all => exact .all rfl
  modules := by
    rintro g _ rfl
    rw [Index.moduleScope, Index.moduleScope, h.moduleScopes]

theorem searchOrder_eq (x : ScopeId) : index'.searchOrder x = index.searchOrder x := by
  have hwalk := h.sameNames.enclosing (show x = x from rfl) index.scopes.size
  rw [List.forall₂_eq_eq_eq] at hwalk
  rw [Index.searchOrder, Index.searchOrder, h.scopes, ← hwalk]

/-- Names lead to the same declarations. -/
theorem lookup_eq (x : ScopeId) (segments : List String) :
    index'.lookup x segments = index.lookup x segments := by
  rw [Index.lookup, Index.lookup, h.searchOrder_eq]
  congr 1
  funext y
  rcases rel_cases (h.sameNames.lookupIn exportBudget (show y = y from rfl) segments) with
    ⟨hx, hy⟩ | ⟨d, e, hx, hy, rfl⟩
  · rw [hx, hy]
  · rw [hx, hy]

end Index.SameScopes

end ComponentSchema
