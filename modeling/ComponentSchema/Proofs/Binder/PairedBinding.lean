import ComponentSchema.Proofs.Binder.IndexChanges
import ComponentSchema.Proofs.Comparison.CounterpartViews

/-!
# Two bindings in step

Two indices are bound in step: every change of the one goes with a change of the other, and what is
made on both sides are counterparts. A `Pairing` says what is kept between two changes, and that the
changes which binding consists of keep it. From this it follows for everything that is bound.

`Pairing.Both` relates a step of binding on one side to one on the other.

Hypotheses. The specifiers of a file lead to counterparts. Where there is a `declare global` block, the
global scopes are counterparts.

Results.
* `act_both`, `bindDecl_both`: what is bound on both sides is shown alike, act by act.
* `bindFile_both`: the views of a file that is bound on both sides are the same but for ids.
-/
namespace ComponentSchema

open Syntax

/-! ## Global declarations -/

mutual

/-- Whether a declaration is a `declare global` block or has one in it. -/
def Syntax.Decl.declaresGlobal : Decl → Bool
  | .namespaceDecl .global _ => true
  | .namespaceDecl _ body => body.declaresGlobal
  | _ => false

/-- Whether there is a `declare global` block in the body of a namespace. -/
def Syntax.NamespaceBody.declaresGlobal : NamespaceBody → Bool
  | .items items => anyDeclaresGlobal items
  | .nested _ body => body.declaresGlobal
  | .absent => false

/-- Whether there is a `declare global` block among some items. -/
def Syntax.anyDeclaresGlobal : List Item → Bool
  | [] => false
  | item :: rest => item.declaresGlobal || anyDeclaresGlobal rest

/-- Whether there is a `declare global` block in an item. -/
def Syntax.Item.declaresGlobal : Item → Bool
  | ⟨_, .declaration decl⟩ => decl.declaresGlobal
  | ⟨_, .exportDecl decl⟩ => decl.declaresGlobal
  | _ => false

end

/-- Whether there is a `declare global` block in a file. -/
def Syntax.SourceTree.declaresGlobal (tree : SourceTree) : Bool := anyDeclaresGlobal tree.items

/-! ## Both sides -/

/-- A way to bind two indices in step. A stage tells what has been made so far, and with it what
corresponds to what; the first of two modules that correspond is one of the first index. -/
structure Pairing where
  Stage : Type
  Before : Stage → Stage → Prop
  before_refl : ∀ n, Before n n
  before_trans : ∀ {n n' n''}, Before n n' → Before n' n'' → Before n n''
  module : ModuleId → ModuleId → Prop
  counterparts : Stage → Counterparts
  module_counterparts : ∀ {n g h}, module g h → (counterparts n).module g h
  within : ∀ {n n'}, Before n n' → (counterparts n).Within (counterparts n')
  /-- What holds between two changes. -/
  Agree : Stage → Index → Index → Prop
  scopes : ∀ {n index₁ index₂ x y}, Agree n index₁ index₂ → (counterparts n).scope x y →
    (counterparts n).SameScope (index₁.scope x) (index₂.scope y)
  decls : ∀ {n index₁ index₂ d e}, Agree n index₁ index₂ → (counterparts n).decl d e →
    Option.Rel (counterparts n).SameDecl index₁.decls[d.index]? index₂.decls[e.index]?
  modifyScope : ∀ {n index₁ index₂ x y change change'}, Agree n index₁ index₂ →
    (counterparts n).scope x y →
    (∀ {data data'}, (counterparts n).SameScope data data' →
      (counterparts n).SameScope (change data) (change' data')) →
    (∀ data, (change data).parent = data.parent) → (∀ data, (change' data).parent = data.parent) →
      Agree n (index₁.modifyScope x change) (index₂.modifyScope y change')
  newScope : ∀ {n index₁ index₂ x y}, Agree n index₁ index₂ → (counterparts n).scope x y →
    ∀ name, ∃ n', Before n n' ∧ Agree n' (index₁.pushScope (Scope.empty name (some x)))
      (index₂.pushScope (Scope.empty name (some y))) ∧
        (counterparts n').scope ⟨index₁.scopes.size⟩ ⟨index₂.scopes.size⟩
  pushDecl : ∀ {n index₁ index₂ x y}, Agree n index₁ index₂ → (counterparts n).scope x y →
    ∀ name kind, ∃ n', Before n n' ∧
      Agree n' { index₁ with decls := index₁.decls.push ⟨name, x, kind⟩ }
        { index₂ with decls := index₂.decls.push ⟨name, y, kind⟩ } ∧
          (counterparts n').decl ⟨index₁.decls.size⟩ ⟨index₂.decls.size⟩
  setDecl : ∀ {n index₁ index₂ d e decl decl'}, Agree n index₁ index₂ → (counterparts n).decl d e →
    (counterparts n).SameDecl decl decl' →
      Agree n { index₁ with decls := index₁.decls.modify d.index fun _ => decl }
        { index₂ with decls := index₂.decls.modify e.index fun _ => decl' }
  pushType : ∀ {n index₁ index₂ x y}, Agree n index₁ index₂ → (counterparts n).scope x y →
    ∀ type, ∃ n', Before n n' ∧
      Agree n' { index₁ with typeSites := index₁.typeSites.push ⟨x, type⟩ }
        { index₂ with typeSites := index₂.typeSites.push ⟨y, type⟩ } ∧
          (counterparts n').node ⟨index₁.typeSites.size⟩ ⟨index₂.typeSites.size⟩
  pushFunction : ∀ {n index₁ index₂ x y}, Agree n index₁ index₂ → (counterparts n).scope x y →
    ∀ body wrapsResult, ∃ n', Before n n' ∧
      Agree n' { index₁ with functionSites := index₁.functionSites.push ⟨x, body, wrapsResult⟩ }
        { index₂ with functionSites := index₂.functionSites.push ⟨y, body, wrapsResult⟩ } ∧
          (counterparts n').function ⟨index₁.functionSites.size⟩ ⟨index₂.functionSites.size⟩
  pushClass : ∀ {n index₁ index₂}, Agree n index₁ index₂ → ∀ site, ∃ n', Before n n' ∧
    Agree n' { index₁ with classSites := index₁.classSites.push site }
      { index₂ with classSites := index₂.classSites.push site } ∧
        (counterparts n').classSite ⟨index₁.classSites.size⟩ ⟨index₂.classSites.size⟩

namespace Pairing

/-- A step on one side and one on the other, after which the indices agree, and with answers for which
`Q` holds. -/
def Both {α β : Type} (p : Pairing) (n : p.Stage) (index₁ index₂ : Index) (first : Binding α)
    (second : Binding β) (Q : p.Stage → α → β → Prop) : Prop :=
  ∃ n', p.Before n n' ∧ p.Agree n' (first.run index₁).2 (second.run index₂).2 ∧
    Q n' (first.run index₁).1 (second.run index₂).1

/-- The global scopes are counterparts. -/
def SharesGlobal (p : Pairing) : Prop := ∀ n, (p.counterparts n).scope globalScope globalScope

variable {p : Pairing} {n n' : p.Stage} {index₁ index₂ : Index} {x y : ScopeId} {α β γ δ : Type}

section

variable {first : Binding α} {second : Binding β} {Q : p.Stage → α → β → Prop}

theorem Both.done {answer : α} {answer' : β} (h : p.Agree n index₁ index₂) (hq : Q n answer answer') :
    p.Both n index₁ index₂ (pure answer) (pure answer') Q :=
  ⟨n, p.before_refl n, h, hq⟩

theorem Both.bind {next : α → Binding γ} {next' : β → Binding δ} {R : p.Stage → γ → δ → Prop}
    (h : p.Both n index₁ index₂ first second Q)
    (hnext : ∀ n' index₁' index₂' answer answer', p.Before n n' → p.Agree n' index₁' index₂' →
      Q n' answer answer' → p.Both n' index₁' index₂' (next answer) (next' answer') R) :
    p.Both n index₁ index₂ (first >>= next) (second >>= next') R := by
  obtain ⟨n', hn, ha, hq⟩ := h
  obtain ⟨n'', hn', ha', hr⟩ := hnext _ _ _ _ _ hn ha hq
  exact ⟨n'', p.before_trans hn hn', ha', hr⟩

theorem Both.map {f : α → γ} {g : β → δ} {R : p.Stage → γ → δ → Prop}
    (h : p.Both n index₁ index₂ first second Q)
    (himp : ∀ n' answer answer', Q n' answer answer' → R n' (f answer) (g answer')) :
    p.Both n index₁ index₂ (f <$> first) (g <$> second) R := by
  obtain ⟨n', hn, ha, hq⟩ := h
  exact ⟨n', hn, ha, himp _ _ _ hq⟩

theorem Both.get_bind {next : Index → Binding α} {next' : Index → Binding β}
    (h : p.Both n index₁ index₂ (next index₁) (next' index₂) Q) :
    p.Both n index₁ index₂ (get >>= next) (get >>= next') Q := h

end

/-! ## Scopes -/

section

variable {name : String} {exported : Bool}

theorem modifyScope_both (h : p.Agree n index₁ index₂) (hxy : (p.counterparts n).scope x y)
    {change change' : Scope → Scope}
    (hchange : ∀ {data data'}, (p.counterparts n).SameScope data data' →
      (p.counterparts n).SameScope (change data) (change' data'))
    (hparent : ∀ data, (change data).parent = data.parent)
    (hparent' : ∀ data, (change' data).parent = data.parent) :
    p.Both n index₁ index₂ (Binding.modifyScope x change) (Binding.modifyScope y change')
      fun _ _ _ => True :=
  ⟨n, p.before_refl n, p.modifyScope h hxy hchange hparent hparent', trivial⟩

theorem addExport_both (h : p.Agree n index₁ index₂) (hxy : (p.counterparts n).scope x y)
    {exported : String} {binding binding' : ExportBinding}
    (hbinding : (p.counterparts n).SameExport binding binding') :
    p.Both n index₁ index₂ (Binding.addExport x exported binding)
      (Binding.addExport y exported binding') fun _ _ _ => True := by
  refine modifyScope_both h hxy (fun {data data'} hdata => ?_) (fun data => ?_) fun data => ?_
  · rcases rel_cases (hdata.exports.lookup exported) with ⟨hx, hy⟩ | ⟨_, _, hx, hy, -⟩
    · rw [hx, hy]
      exact { hdata with exports := .cons ⟨rfl, hbinding⟩ hdata.exports }
    · rw [hx, hy]
      exact hdata
  · split <;> rfl
  · split <;> rfl

theorem addImport_both (h : p.Agree n index₁ index₂) (hxy : (p.counterparts n).scope x y)
    {binding binding' : ImportBinding} (hbinding : (p.counterparts n).SameImport binding binding') :
    p.Both n index₁ index₂ (Binding.addImport x name binding) (Binding.addImport y name binding')
      fun _ _ _ => True :=
  modifyScope_both h hxy
    (fun hdata => { hdata with imports := .cons ⟨rfl, hbinding⟩ hdata.imports })
    (fun _ => rfl) fun _ => rfl

theorem addStarExport_both (h : p.Agree n index₁ index₂) (hxy : (p.counterparts n).scope x y)
    {g g' : ModuleId} (hmodule : p.module g g') :
    p.Both n index₁ index₂ (Binding.addStarExport x g) (Binding.addStarExport y g')
      fun _ _ _ => True :=
  modifyScope_both h hxy
    (fun hdata => { hdata with
      starExports := List.rel_append hdata.starExports (.cons (p.module_counterparts hmodule) .nil) })
    (fun _ => rfl) fun _ => rfl

theorem exportIf_both (h : p.Agree n index₁ index₂) (hxy : (p.counterparts n).scope x y) :
    p.Both n index₁ index₂ (Binding.exportIf exported x name) (Binding.exportIf exported y name)
      fun _ _ _ => True := by
  cases exported with
  | true => exact addExport_both h hxy .own
  | false => exact .done h trivial

theorem declare_both (h : p.Agree n index₁ index₂) (hxy : (p.counterparts n).scope x y)
    (kind : TypeDeclKind) :
    p.Both n index₁ index₂ (Binding.declare x name kind exported)
      (Binding.declare y name kind exported) fun _ _ _ => True := by
  refine (exportIf_both h hxy).bind fun n' index₁' index₂' _ _ hn ha _ => Both.get_bind ?_
  have hxy' := (p.within hn).scope hxy
  rcases rel_cases ((p.scopes ha hxy').types.lookup name) with ⟨hx, hy⟩ | ⟨_, _, hx, hy, -⟩
  · rw [hx, hy]
    obtain ⟨n'', hn', hpushed, hnew⟩ := p.pushDecl ha hxy' name kind
    refine ⟨n'', hn', p.modifyScope hpushed ((p.within hn').scope hxy') ?_ ?_ ?_, trivial⟩
    · exact fun hdata => { hdata with types := .cons ⟨rfl, hnew⟩ hdata.types }
    · exact fun _ => rfl
    · exact fun _ => rfl
  · rw [hx, hy]
    exact .done ha trivial

theorem addBody?_rel {c : Counterparts} {decl decl' : TypeDecl} (h : c.SameDecl decl decl')
    (members : List TypeMember) :
    Option.Rel c.SameDecl (decl.addBody? members) (decl'.addBody? members) := by
  obtain ⟨name, scope, kind⟩ := decl
  obtain ⟨name', scope', kind'⟩ := decl'
  obtain ⟨rfl, hscope, rfl⟩ := h
  cases kind with
  | interface => exact .some ⟨rfl, hscope, rfl⟩
  | typeAlias | nominal => exact .none

theorem declareInterface_both (h : p.Agree n index₁ index₂) (hxy : (p.counterparts n).scope x y)
    (members : List TypeMember) :
    p.Both n index₁ index₂ (Binding.declareInterface x name members exported)
      (Binding.declareInterface y name members exported) fun _ _ _ => True := by
  refine Both.get_bind ?_
  rcases rel_cases ((p.scopes h hxy).types.lookup name) with ⟨hx, hy⟩ | ⟨d, e, hx, hy, hde⟩
  · simp only [hx, hy, Option.bind_eq_bind, Option.bind_none]
    exact declare_both h hxy _
  · rcases rel_cases (p.decls h hde) with ⟨hfirst, hsecond⟩ | ⟨first, second, hfirst, hsecond, hsame⟩
    · simp only [hx, hy, hfirst, hsecond, Option.bind_eq_bind, Option.bind_some, Option.bind_none]
      exact declare_both h hxy _
    · rcases rel_cases (addBody?_rel hsame members) with ⟨hf, hs⟩ | ⟨decl, decl', hf, hs, hdecl⟩
      · simp only [hx, hy, hfirst, hsecond, hf, hs, Option.bind_eq_bind, Option.bind_some,
          Option.bind_none]
        exact declare_both h hxy _
      · simp only [hx, hy, hfirst, hsecond, hf, hs, Option.bind_eq_bind, Option.bind_some]
        exact exportIf_both (p.setDecl h hde hdecl) hxy

theorem newScope_both (h : p.Agree n index₁ index₂) (hxy : (p.counterparts n).scope x y)
    (name : Option String) :
    p.Both n index₁ index₂ (Binding.newScope name (some x)) (Binding.newScope name (some y))
      fun n' x' y' => (p.counterparts n').scope x' y' :=
  p.newScope h hxy name

theorem namespaceScope_both (h : p.Agree n index₁ index₂) (hxy : (p.counterparts n).scope x y) :
    p.Both n index₁ index₂ (Binding.namespaceScope x name exported)
      (Binding.namespaceScope y name exported)
      fun n' x' y' => (p.counterparts n').scope x' y' := by
  refine (exportIf_both h hxy).bind fun n' index₁' index₂' _ _ hn ha _ => Both.get_bind ?_
  have hxy' := (p.within hn).scope hxy
  rcases rel_cases ((p.scopes ha hxy').namespaces.lookup name) with ⟨hx, hy⟩ | ⟨_, _, hx, hy, hinner⟩
  · simp only [hx, hy]
    refine (newScope_both ha hxy' (some name)).bind fun n'' _ _ x' y' hn' ha' hinner => ?_
    refine (modifyScope_both ha' ((p.within hn').scope hxy') ?_ ?_ ?_).bind
      fun _ _ _ _ _ hn'' ha'' _ => .done ha'' ((p.within hn'').scope hinner)
    · exact fun hdata => { hdata with namespaces := .cons ⟨rfl, hinner⟩ hdata.namespaces }
    · exact fun _ => rfl
    · exact fun _ => rfl
  · simp only [hx, hy]
    exact .done ha hinner

end

/-! ## Sites and views -/

theorem addTypeSite_both (h : p.Agree n index₁ index₂) (hxy : (p.counterparts n).scope x y)
    (type : TypeExpr) :
    p.Both n index₁ index₂ (Binding.addTypeSite x type) (Binding.addTypeSite y type)
      fun n' i j => (p.counterparts n').node i j :=
  p.pushType h hxy type

theorem addFunctionSite_both (h : p.Agree n index₁ index₂) (hxy : (p.counterparts n).scope x y)
    (body : Option Body) (wrapsResult : Bool) :
    p.Both n index₁ index₂ (Binding.addFunctionSite ⟨x, body, wrapsResult⟩)
      (Binding.addFunctionSite ⟨y, body, wrapsResult⟩)
      fun n' f g => (p.counterparts n').function f g :=
  p.pushFunction h hxy body wrapsResult

theorem addClassSite_both (h : p.Agree n index₁ index₂) (site : ClassSite) :
    p.Both n index₁ index₂ (Binding.addClassSite site) (Binding.addClassSite site)
      fun n' a a' => (p.counterparts n').classSite a a' :=
  p.pushClass h site

mutual

theorem typeNode_both : ∀ (type : TypeExpr) {n : p.Stage} {index₁ index₂ : Index} {x y : ScopeId},
    p.Agree n index₁ index₂ → (p.counterparts n).scope x y →
      p.Both n index₁ index₂ (Binding.typeNode x type) (Binding.typeNode y type)
        fun n' node node' => (p.counterparts n').SameNode node node'
  | .reference name, n, index₁, index₂, x, y, h, hxy => by
    simp only [Binding.typeNode]
    exact (addTypeSite_both h hxy _).bind fun _ _ _ _ _ _ ha hid => .done ha (.mk hid .reference)
  | .function parameters returnType, n, index₁, index₂, x, y, h, hxy => by
    simp only [Binding.typeNode]
    refine (addTypeSite_both h hxy _).bind fun n₁ _ _ _ _ hn₁ h₁ hid => ?_
    have hxy₁ := (p.within hn₁).scope hxy
    refine (addFunctionSite_both h₁ hxy₁ none false).bind fun n₂ _ _ _ _ hn₂ h₂ hfunction => ?_
    have hxy₂ := (p.within hn₂).scope hxy₁
    refine (typeParameters_both parameters 0 h₂ hxy₂).bind fun n₃ _ _ _ _ hn₃ h₃ hparameters => ?_
    refine (typeNode_both returnType h₃ ((p.within hn₃).scope hxy₂)).bind
      fun n₄ _ _ _ _ hn₄ h₄ hreturn => .done h₄ ?_
    refine .mk ((p.within (p.before_trans hn₂ (p.before_trans hn₃ hn₄))).node hid) (.function ?_)
    refine .mk (fun _ => ?_) (hparameters.mono (p.within hn₄)) (.some hreturn)
    exact (p.within (p.before_trans hn₃ hn₄)).function hfunction
  | .keyword _, n, index₁, index₂, x, y, h, hxy | .parenthesized _, n, index₁, index₂, x, y, h, hxy
  | .literal _, n, index₁, index₂, x, y, h, hxy | .union _, n, index₁, index₂, x, y, h, hxy
  | .intersection _, n, index₁, index₂, x, y, h, hxy | .constructor, n, index₁, index₂, x, y, h, hxy
  | .other, n, index₁, index₂, x, y, h, hxy => by
    simp only [Binding.typeNode]
    exact (addTypeSite_both h hxy _).bind fun _ _ _ _ _ _ ha hid => .done ha (.mk hid .other)

theorem typeParameters_both : ∀ (parameters : List TypeParameter) (position : Nat) {n : p.Stage}
    {index₁ index₂ : Index} {x y : ScopeId}, p.Agree n index₁ index₂ →
    (p.counterparts n).scope x y → p.Both n index₁ index₂ (Binding.typeParameters x position parameters)
      (Binding.typeParameters y position parameters)
      fun n' views views' => (p.counterparts n').SameParameters views views'
  | [], position, n, index₁, index₂, x, y, h, hxy => by
    simp only [Binding.typeParameters]
    exact .done h .nil
  | ⟨name, none⟩ :: rest, position, n, index₁, index₂, x, y, h, hxy => by
    simp only [Binding.typeParameters]
    exact (typeParameters_both rest (position + 1) h hxy).bind
      fun _ _ _ _ _ _ h' hrest => .done h' (.cons .none hrest)
  | ⟨name, some type⟩ :: rest, position, n, index₁, index₂, x, y, h, hxy => by
    simp only [Binding.typeParameters]
    refine (typeNode_both type h hxy).bind fun n₁ _ _ _ _ hn₁ h₁ hnode => ?_
    refine (typeParameters_both rest (position + 1) h₁ ((p.within hn₁).scope hxy)).bind
      fun n₂ _ _ _ _ hn₂ h₂ hrest => .done h₂ ?_
    exact .cons (.some (hnode.mono (p.within hn₂))) hrest

end

theorem maybeTypeNode_both (h : p.Agree n index₁ index₂) (hxy : (p.counterparts n).scope x y)
    (type : Option TypeExpr) :
    p.Both n index₁ index₂ (Binding.maybeTypeNode x type) (Binding.maybeTypeNode y type)
      fun n' node node' => (p.counterparts n').SameTyping node node' := by
  cases type with
  | none => exact .done h .none
  | some type => exact (typeNode_both type h hxy).map fun _ _ _ hnode => .some hnode

theorem functionParameters_both (h : p.Agree n index₁ index₂) (hxy : (p.counterparts n).scope x y)
    (position : Nat) (parameters : List Syntax.Parameter) :
    p.Both n index₁ index₂ (Binding.functionParameters x position parameters)
      (Binding.functionParameters y position parameters)
      fun n' views views' => (p.counterparts n').SameParameters views views' := by
  induction parameters generalizing n index₁ index₂ position with
  | nil => exact .done h .nil
  | cons parameter rest ih =>
    refine (maybeTypeNode_both h hxy _).bind fun n₁ _ _ _ _ hn₁ h₁ hnode => ?_
    refine (ih h₁ ((p.within hn₁).scope hxy) (position + 1)).bind
      fun n₂ _ _ _ _ hn₂ h₂ hrest => .done h₂ ?_
    exact .cons (hnode.mono (p.within hn₂)) hrest

theorem function_both (h : p.Agree n index₁ index₂) (hxy : (p.counterparts n).scope x y)
    (definition : Function) :
    p.Both n index₁ index₂ (Binding.function x definition) (Binding.function y definition)
      fun n' view view' => (p.counterparts n').SameSignature view view' := by
  refine (addFunctionSite_both h hxy _ _).bind fun n₁ _ _ _ _ hn₁ h₁ hid => ?_
  have hxy₁ := (p.within hn₁).scope hxy
  refine (functionParameters_both h₁ hxy₁ 0 _).bind fun n₂ _ _ _ _ hn₂ h₂ hparameters => ?_
  refine (maybeTypeNode_both h₂ ((p.within hn₂).scope hxy₁) _).bind
    fun n₃ _ _ _ _ hn₃ h₃ hreturn => .done h₃ ?_
  refine .mk (fun _ => ?_) (hparameters.mono (p.within hn₃)) hreturn
  exact (p.within (p.before_trans hn₂ hn₃)).function hid

theorem initializer_both (h : p.Agree n index₁ index₂) (hxy : (p.counterparts n).scope x y)
    (value : Expr) :
    p.Both n index₁ index₂ (Binding.initializer x value) (Binding.initializer y value)
      fun n' view view' => (p.counterparts n').SameInitializer (some view) (some view') := by
  unfold Binding.initializer
  split
  · exact (function_both h hxy _).map fun _ _ _ hfunction => .function hfunction
  · exact .done h .value

theorem variableDecl_both (h : p.Agree n index₁ index₂) (hxy : (p.counterparts n).scope x y)
    (exported : Bool) (aliases : List (String × String)) (declarator : Declarator) :
    p.Both n index₁ index₂ (Binding.variableDecl x exported aliases declarator)
      (Binding.variableDecl y exported aliases declarator)
      fun n' view view' => Option.Rel (p.counterparts n').SameView view view' := by
  obtain ⟨_ | name, type, value⟩ := declarator
  · exact .done h .none
  · refine (maybeTypeNode_both h hxy type).bind fun n₁ _ _ _ _ hn₁ h₁ hnode => ?_
    have hxy₁ := (p.within hn₁).scope hxy
    cases value with
    | none => exact .done h₁ (.some (.varDecl .none hnode))
    | some value =>
      refine Both.bind ((initializer_both h₁ hxy₁ value).map
        (R := fun n' view view' => (p.counterparts n').SameInitializer view view')
          fun _ _ _ hvalue => hvalue) fun n₂ _ _ _ _ hn₂ h₂ hvalue => .done h₂ ?_
      exact .some (.varDecl hvalue (hnode.mono (p.within hn₂)))

theorem classView_both (h : p.Agree n index₁ index₂) (name : Option String)
    (members : List ClassMember) (exported : Bool) (leading : List Comment) :
    p.Both n index₁ index₂ (Binding.classView name members exported leading)
      (Binding.classView name members exported leading)
      fun n' view view' => (p.counterparts n').SameView view view' :=
  (addClassSite_both h _).bind fun _ _ _ _ _ _ h₁ hid => .done h₁ (.classDecl hid)

/-! ## Clauses -/

section

variable {file₁ file₂ : ModuleFile}

theorem importBinding_same {c : Counterparts} {g g' : ModuleId} (h : c.module g g')
    (specifier : ImportSpecifier) :
    (Binding.importBinding g specifier).1 = (Binding.importBinding g' specifier).1 ∧
      c.SameImport (Binding.importBinding g specifier).2 (Binding.importBinding g' specifier).2 := by
  cases specifier with
  | named imported localName => exact ⟨rfl, .named h⟩
  | default localName => exact ⟨rfl, .named h⟩
  | all localName => exact ⟨rfl, .all h⟩

theorem forM_both {ι : Type} {step step' : ι → Binding Unit} {items : List ι}
    (h : p.Agree n index₁ index₂)
    (hstep : ∀ n' index₁' index₂', p.Before n n' → p.Agree n' index₁' index₂' → ∀ item ∈ items,
      p.Both n' index₁' index₂' (step item) (step' item) fun _ _ _ => True) :
    p.Both n index₁ index₂ (items.forM step) (items.forM step') fun _ _ _ => True := by
  induction items generalizing n index₁ index₂ with
  | nil => exact .done h trivial
  | cons item rest ih =>
    refine (hstep n index₁ index₂ (p.before_refl n) h item (List.mem_cons_self ..)).bind
      fun n₁ _ _ _ _ hn₁ h₁ _ => ih h₁ fun n' _ _ hn' h' other ho => ?_
    exact hstep n' _ _ (p.before_trans hn₁ hn') h' other (List.mem_cons_of_mem _ ho)

theorem bindImport_both (h : p.Agree n index₁ index₂) (hxy : (p.counterparts n).scope x y)
    (source : StringLiteral)
    (hsource : Option.Rel p.module (file₁.dependency? source) (file₂.dependency? source))
    (specifiers : List ImportSpecifier) :
    p.Both n index₁ index₂ (Binding.bindImport file₁ x source specifiers)
      (Binding.bindImport file₂ y source specifiers) fun _ _ _ => True := by
  unfold Binding.bindImport
  rcases rel_cases hsource with ⟨hx, hy⟩ | ⟨g, g', hx, hy, hmodule⟩
  · rw [hx, hy]
    exact .done h trivial
  · rw [hx, hy]
    refine forM_both h fun n' _ _ hn' h' specifier _ => ?_
    obtain ⟨hname, hbinding⟩ := importBinding_same (p.module_counterparts (n := n') hmodule) specifier
    simp only [hname]
    exact addImport_both h' ((p.within hn').scope hxy) hbinding

theorem bindExportEntry_both (h : p.Agree n index₁ index₂) (hxy : (p.counterparts n).scope x y)
    {source source' : Option ModuleId} (hsource : Option.Rel p.module source source')
    (specifier : ExportSpecifier) :
    p.Both n index₁ index₂ (Binding.bindExportEntry x source specifier)
      (Binding.bindExportEntry y source' specifier) fun _ _ _ => True := by
  cases specifier with
  | named original exported =>
    refine addExport_both h hxy ?_
    cases hsource with
    | none => exact .own
    | some hmodule => exact .reexport (p.module_counterparts hmodule)
  | all exported =>
    cases hsource with
    | none => exact .done h trivial
    | some hmodule => exact addExport_both h hxy (.all (p.module_counterparts hmodule))

theorem bindExportClause_both (h : p.Agree n index₁ index₂) (hxy : (p.counterparts n).scope x y)
    (hfiles : ∀ source, Option.Rel p.module (file₁.dependency? source) (file₂.dependency? source))
    (item : ItemKind) :
    p.Both n index₁ index₂ (Binding.bindExportClause file₁ x item)
      (Binding.bindExportClause file₂ y item) fun _ _ _ => True := by
  unfold Binding.bindExportClause
  split
  · exact forM_both h fun n' _ _ hn' h' entry _ =>
      bindExportEntry_both h' ((p.within hn').scope hxy) .none entry
  · rename_i source entries
    rcases rel_cases (hfiles source) with ⟨hx, hy⟩ | ⟨g, g', hx, hy, hmodule⟩
    · rw [hx, hy]
      exact .done h trivial
    · rw [hx, hy]
      exact forM_both h fun n' _ _ hn' h' entry _ =>
        bindExportEntry_both h' ((p.within hn').scope hxy) (.some hmodule) entry
  · rename_i source
    rcases rel_cases (hfiles source) with ⟨hx, hy⟩ | ⟨g, g', hx, hy, hmodule⟩
    · rw [hx, hy]
      exact .done h trivial
    · rw [hx, hy]
      exact addStarExport_both h hxy hmodule
  · exact .done h trivial

/-! ## Items -/

/-- Two steps whose answers are views of the same declarations. -/
def BothShow (p : Pairing) (n : p.Stage) (index₁ index₂ : Index)
    (first second : Binding (List Declaration)) : Prop :=
  p.Both n index₁ index₂ first second fun n' views views' => (p.counterparts n').SameViews views views'

theorem BothShow.nil {first second : Binding Unit}
    (hboth : p.Both n index₁ index₂ first second fun _ _ _ => True) :
    p.BothShow n index₁ index₂ (first >>= fun _ => pure []) (second >>= fun _ => pure []) :=
  hboth.bind fun _ _ _ _ _ _ h' _ => .done h' .nil

theorem BothShow.andThen {first second first' second' : Binding (List Declaration)}
    (h : p.BothShow n index₁ index₂ first second)
    (hnext : ∀ n' index₁' index₂', p.Before n n' → p.Agree n' index₁' index₂' →
      p.BothShow n' index₁' index₂' first' second') :
    p.BothShow n index₁ index₂ (Binding.andThen first first') (Binding.andThen second second') := by
  refine Both.bind h fun n₁ _ _ _ _ hn₁ h₁ hviews => ?_
  refine Both.bind (hnext n₁ _ _ hn₁ h₁) fun n₂ _ _ _ _ hn₂ h₂ hothers => .done h₂ ?_
  exact (hviews.mono (p.within hn₂)).append hothers

/-- The body of a namespace is bound in scopes that are counterparts. -/
theorem enter_both (h : p.Agree n index₁ index₂) (hxy : (p.counterparts n).scope x y) (exported : Bool)
    (name : NamespaceName) (hglobal : name = .global → p.SharesGlobal) :
    p.Both n index₁ index₂ (Binding.enter x exported name) (Binding.enter y exported name)
      fun n' inner inner' => (p.counterparts n').scope inner inner' := by
  cases name with
  | identifier name => exact namespaceScope_both h hxy
  | string name => exact newScope_both h hxy (some name)
  | global => exact .done h (hglobal rfl n)

theorem BothShow.inNamespace (h : p.Agree n index₁ index₂) (hxy : (p.counterparts n).scope x y)
    (name : NamespaceName) (exported : Bool) (hglobal : name = .global → p.SharesGlobal)
    {inside inside' : ScopeId → Binding (List Declaration)}
    (hinside : ∀ n' index₁' index₂' inner inner', p.Agree n' index₁' index₂' →
      (p.counterparts n').scope inner inner' →
        p.BothShow n' index₁' index₂' (inside inner) (inside' inner')) :
    p.BothShow n index₁ index₂ (Binding.inNamespace x name exported inside)
      (Binding.inNamespace y name exported inside') := by
  refine (enter_both h hxy exported name hglobal).bind fun n₁ _ _ inner inner' _ h₁ hinner => ?_
  exact Both.bind (hinside n₁ _ _ inner inner' h₁ hinner)
    fun _ _ _ _ _ _ h₂ hviews => .done h₂ (.cons (.namespaceDecl hviews) .nil)

theorem act_both
    (hfiles : ∀ source, Option.Rel p.module (file₁.dependency? source) (file₂.dependency? source))
    (h : p.Agree n index₁ index₂) (hxy : (p.counterparts n).scope x y) (act : Binding.Act) :
    p.BothShow n index₁ index₂ (act.bind file₁ x) (act.bind file₂ y) := by
  cases act with
  | function _ _ _ definition =>
    exact (function_both h hxy definition).bind
      fun _ _ _ _ _ _ h' hfunction => .done h' (.cons (.funDecl hfunction) .nil)
  | declarator aliases exported written =>
    refine (variableDecl_both h hxy exported aliases written).bind
      fun _ _ _ _ _ _ h' hview => .done h' ?_
    cases hview with
    | none => exact .nil
    | some hview => exact .cons hview .nil
  | classView name members exported leading =>
    exact (classView_both h name members exported leading).bind
      fun _ _ _ _ _ _ h' hview => .done h' (.cons hview .nil)
  | nominal => exact .nil (declare_both h hxy .nominal)
  | typeAlias _ type => exact .nil (declare_both h hxy (.typeAlias type))
  | interface _ members => exact .nil (declareInterface_both h hxy members)
  | exportDefault => exact .nil (addExport_both h hxy .own)
  | imports source specifiers => exact .nil (bindImport_both h hxy source (hfiles source) specifiers)
  | clause kind => exact .nil (bindExportClause_both h hxy hfiles kind)

/-- What is bound in scopes that are counterparts is shown alike. The account says whether there is a
`declare global` block. -/
def bothShowing (p : Pairing) : Binding.Judgement where
  Account := Bool
  Holds x y step step' global := (global = true → p.SharesGlobal) → ∀ {n index₁ index₂},
    p.Agree n index₁ index₂ → (p.counterparts n).scope x y → p.BothShow n index₁ index₂ step step'
  nothing := false
  both global global' := global || global'
  within name _ global := name == .global || global
  holds_nothing _ _ _ _ h _ := .done h .nil
  holds_both hfirst hsecond hglobal _ _ _ h hxy :=
    BothShow.andThen (hfirst (fun heq => hglobal (by rw [heq, Bool.true_or])) h hxy)
      fun _ _ _ hn' h' =>
        hsecond (fun heq => hglobal (by rw [heq, Bool.or_true])) h' ((p.within hn').scope hxy)
  holds_within hinside hglobal _ _ _ h hxy :=
    BothShow.inNamespace h hxy _ _ (fun heq => hglobal (by simp [heq]))
      fun _ _ _ inner inner' h' hinner =>
        hinside inner inner' (fun heq => hglobal (by rw [heq, Bool.or_true])) h' hinner

/-- No act comes from a `declare global` block. -/
theorem ofActs_bothShowing (acts : List Binding.Act) :
    p.bothShowing.ofActs (fun _ => false) acts = false := by
  induction acts with
  | nil => rfl
  | cons act rest ih => exact (Bool.false_or _).trans ih

def bothShowingLedger
    (hfiles : ∀ source, Option.Rel p.module (file₁.dependency? source) (file₂.dependency? source)) :
    p.bothShowing.Ledger file₁ file₂ where
  ofAct _ := false
  ofDecl _ _ _ decl := decl.declaresGlobal
  ofBody body := body.declaresGlobal
  ofItems _ items := anyDeclaresGlobal items
  ofItem _ item := item.declaresGlobal
  act act _ _ _ _ _ _ h hxy := act_both hfiles h hxy act
  decl_acts {_ _ _ decl acts} hacts := .of_eq ((ofActs_bothShowing acts).trans (by
    cases decl with
    | namespaceDecl => cases hacts
    | _ => rfl))
  decl_namespaceDecl {_ _ _ name _} := .of_eq (by cases name <;> rfl)
  body_absent := .of_eq rfl
  body_nested := .of_eq rfl
  body_items {items} := .of_eq (congrArg (· || anyDeclaresGlobal items) (ofActs_bothShowing _))
  items_nil := .of_eq rfl
  items_cons := .of_eq rfl
  item_acts {_ item acts} hacts := .of_eq ((ofActs_bothShowing acts).trans (by
    obtain ⟨leading, kind⟩ := item
    cases kind with
    | declaration | exportDecl => cases hacts
    | _ => rfl))
  item_declaration := .of_eq rfl
  item_exportDecl := .of_eq rfl

theorem bindDecl_both
    (hfiles : ∀ source, Option.Rel p.module (file₁.dependency? source) (file₂.dependency? source))
    (decl : Decl) (hglobal : decl.declaresGlobal = true → p.SharesGlobal)
    (aliases : List (String × String)) (exported : Bool) (leading : List Comment)
    (h : p.Agree n index₁ index₂) (hxy : (p.counterparts n).scope x y) :
    p.BothShow n index₁ index₂ (Binding.bindDecl file₁ aliases x exported leading decl)
      (Binding.bindDecl file₂ aliases y exported leading decl) :=
  (bothShowingLedger hfiles).bindDecl decl aliases exported leading x y hglobal h hxy

theorem bindBody_both
    (hfiles : ∀ source, Option.Rel p.module (file₁.dependency? source) (file₂.dependency? source))
    (body : NamespaceBody) (hglobal : body.declaresGlobal = true → p.SharesGlobal)
    (h : p.Agree n index₁ index₂) (hxy : (p.counterparts n).scope x y) :
    p.BothShow n index₁ index₂ (Binding.bindBody file₁ x body) (Binding.bindBody file₂ y body) :=
  (bothShowingLedger hfiles).bindBody body x y hglobal h hxy

theorem bindItem_both
    (hfiles : ∀ source, Option.Rel p.module (file₁.dependency? source) (file₂.dependency? source))
    (item : Item) (hglobal : item.declaresGlobal = true → p.SharesGlobal)
    (aliases : List (String × String)) (h : p.Agree n index₁ index₂)
    (hxy : (p.counterparts n).scope x y) :
    p.BothShow n index₁ index₂ (Binding.bindItem file₁ aliases x item)
      (Binding.bindItem file₂ aliases y item) :=
  (bothShowingLedger hfiles).bindItem item aliases x y hglobal h hxy

/-- A file that is bound twice has the same views both times. -/
theorem bindFile_both (file₁ file₂ : ModuleFile) (h : p.Agree n index₁ index₂)
    (hxy : (p.counterparts n).scope x y) (htree : file₁.tree = file₂.tree)
    (hglobal : file₁.tree.declaresGlobal = true → p.SharesGlobal)
    (hfiles : ∀ source, Option.Rel p.module (file₁.dependency? source) (file₂.dependency? source)) :
    p.Both n index₁ index₂ (Binding.bindFile file₁ x) (Binding.bindFile file₂ y)
      fun n' first second =>
        (p.counterparts n').SameViews first.declarations second.declarations := by
  unfold Binding.bindFile
  rw [← htree]
  exact (bindBody_both hfiles (.items file₁.tree.items) hglobal h hxy).bind
    fun _ _ _ _ _ _ h' hviews => .done h' hviews

end

end Pairing

end ComponentSchema
