import ComponentSchema.Proofs.Rewriting.RewrittenFiles

/-!
# Forms of a declaration

A function can be declared in many forms: `function N(ps): R { b }`, `const N = (ps): R => { b }`,
`const N = function (ps): R { b }`, with `=> e` for `=> { return e; }`, and if `R` is there without a
body, as `declare function N(ps): R` or `declare const N: (ps) => R`. A program has the same document
whichever form its functions are declared in.

Every form keeps the same function once it has kept its annotations: `Declarator.Declares.variableDecl`
and `Decl.Declares.bindDecl` say how, one case for each form. The two functions are bound in step, so
the programs are twins.

Hypotheses. `Function.SameCall`: the parameters have the same names and types, and the annotation of
the result is the same; without one, the bodies return the same. `FileTree.Rewritten`: other texts
stand in some files, and both texts parse.

Results.
* `signature_both`: by what they return, or by their annotation, the two functions are the same.
* `Twins.bindBody_sameForms`: functions in other forms are bound side by side, at any depth.
* `documentFiles_sameForms`: the documents of the two programs.
-/
namespace ComponentSchema

open Syntax

/-! ## Forms -/

/-- The parameter as a parameter of a function type. -/
def Syntax.Parameter.typed (parameter : Syntax.Parameter) : TypeParameter :=
  ⟨parameter.name, parameter.written.map (·.type)⟩

/-- Two functions with the same parameters and the same annotation of what they return, or without
one and with bodies that return the same. -/
structure Syntax.Function.SameCall (first second : Function) : Prop where
  parameters : first.parameters.map Parameter.typed = second.parameters.map Parameter.typed
  returnType : first.returnType = second.returnType
  result : first.returnType = none → Option.Rel Body.SameReturns first.body second.body ∧
    (first.isAsync || first.isGenerator) = (second.isAsync || second.isGenerator)

/-- A declarator that declares `name` as a function: by its value, within parentheses and casts, or by
its type alone. -/
inductive Syntax.Declarator.Declares (name : String) (definition : Function) : Declarator → Prop
  | value {value : Expr} : value.function? = some definition →
    Declares name definition ⟨some name, none, some value⟩
  | typed {result : TypeExpr} : definition.returnType = some result →
    Declares name definition
      ⟨some name, some (.function (definition.parameters.map Parameter.typed) result), none⟩

/-- A declaration that declares `name` as a function. -/
inductive Syntax.Decl.Declares (name : String) (definition : Function) : Decl → Prop
  | function : Declares name definition (.function name definition)
  | binding {declarator : Declarator} : declarator.Declares name definition →
    Declares name definition (.variables [declarator])

/-- The same declarator, or two that declare the same function. -/
inductive Syntax.Declarator.SameForms : Declarator → Declarator → Prop
  | refl (declarator : Declarator) : SameForms declarator declarator
  | component {name : String} {definition definition' : Function} {first second : Declarator} :
    first.Declares name definition → second.Declares name definition' →
      definition.SameCall definition' → SameForms first second

mutual

/-- Declarations in which some functions are declared in other forms. -/
inductive Syntax.Decl.SameForms : Decl → Decl → Prop
  | refl (decl : Decl) : Decl.SameForms decl decl
  | component {name : String} {definition definition' : Function} {first second : Decl} :
    first.Declares name definition → second.Declares name definition' →
      definition.SameCall definition' → Decl.SameForms first second
  | variables {declarators declarators' : List Declarator} :
    List.Forall₂ Declarator.SameForms declarators declarators' →
      Decl.SameForms (.variables declarators) (.variables declarators')
  | namespaceDecl {name : NamespaceName} {body body' : NamespaceBody} :
    NamespaceBody.SameForms body body' →
      Decl.SameForms (.namespaceDecl name body) (.namespaceDecl name body')

inductive Syntax.NamespaceBody.SameForms : NamespaceBody → NamespaceBody → Prop
  | absent : NamespaceBody.SameForms .absent .absent
  | nested {name : String} {body body' : NamespaceBody} : NamespaceBody.SameForms body body' →
    NamespaceBody.SameForms (.nested name body) (.nested name body')
  | items {items items' : List Item} : SameItems items items' →
    NamespaceBody.SameForms (.items items) (.items items')

inductive Syntax.SameItems : List Item → List Item → Prop
  | nil : SameItems [] []
  | cons {item item' : Item} {rest rest' : List Item} : Item.SameForms item item' →
    SameItems rest rest' → SameItems (item :: rest) (item' :: rest')

inductive Syntax.Item.SameForms : Item → Item → Prop
  | refl (item : Item) : Item.SameForms item item
  | declaration {leading : List Comment} {decl decl' : Decl} : Decl.SameForms decl decl' →
    Item.SameForms ⟨leading, .declaration decl⟩ ⟨leading, .declaration decl'⟩
  | exportDecl {leading : List Comment} {decl decl' : Decl} : Decl.SameForms decl decl' →
    Item.SameForms ⟨leading, .exportDecl decl⟩ ⟨leading, .exportDecl decl'⟩

end

/-- Files in which some functions are declared in other forms. -/
def Syntax.SourceTree.SameForms (first second : SourceTree) : Prop :=
  SameItems first.items second.items

theorem Syntax.SourceTree.sameForms_refl (tree : SourceTree) : tree.SameForms tree := by
  have hitems : ∀ items : List Item, SameItems items items := by
    intro items
    induction items with
    | nil => exact .nil
    | cons item rest ih => exact .cons (.refl item) ih
  exact hitems tree.items

/-- What does not depend on declarations is the same for every item. -/
theorem Syntax.SameItems.map_eq {α : Type} {f : Item → α}
    (hdecl : ∀ leading decl decl', f ⟨leading, .declaration decl⟩ = f ⟨leading, .declaration decl'⟩)
    (hexport : ∀ leading decl decl', f ⟨leading, .exportDecl decl⟩ = f ⟨leading, .exportDecl decl'⟩) :
    ∀ {items items' : List Item}, SameItems items items' → items.map f = items'.map f
  | _, _, .nil => rfl
  | _, _, .cons hitem hrest => by
    rw [List.map_cons, List.map_cons, hrest.map_eq hdecl hexport]
    cases hitem with
    | refl => rfl
    | declaration => rw [hdecl]
    | exportDecl => rw [hexport]

theorem Syntax.SourceTree.SameForms.specifiers {first second : SourceTree}
    (h : first.SameForms second) : first.specifiers = second.specifiers :=
  specifiers_congr (h.map_eq (fun _ _ _ => rfl) fun _ _ _ => rfl)

theorem Syntax.SourceTree.SameForms.isScript {first second : SourceTree}
    (h : first.SameForms second) : first.isScript = second.isScript :=
  isScript_congr (h.map_eq (fun _ _ _ => rfl) fun _ _ _ => rfl)

theorem Syntax.SameItems.exportAliases {items items' : List Item} (h : SameItems items items') :
    ComponentSchema.exportAliases items = ComponentSchema.exportAliases items' := by
  rw [ComponentSchema.exportAliases, ComponentSchema.exportAliases, List.flatMap_def, List.flatMap_def,
    h.map_eq (fun _ _ _ => rfl) (fun _ _ _ => rfl)]

/-- The export clauses of both lists do the same. -/
theorem Syntax.SameItems.clauses {items items' : List Item} (h : SameItems items items')
    (file : ModuleFile) (scope : ScopeId) :
    (items.forM fun item => Binding.bindExportClause file scope item.kind) =
      items'.forM fun item => Binding.bindExportClause file scope item.kind := by
  have hclauses := h.map_eq (f := fun item => Binding.bindExportClause file scope item.kind)
    (fun _ _ _ => rfl) fun _ _ _ => rfl
  have hmap : ∀ items : List Item,
      (items.forM fun item => Binding.bindExportClause file scope item.kind) =
        (items.map fun item => Binding.bindExportClause file scope item.kind).forM id := by
    intro items
    induction items with
    | nil => rfl
    | cons item rest ih =>
      exact congrArg (Binding.bindExportClause file scope item.kind >>= fun _ => ·) ih
  rw [hmap, hmap, hclauses]

/-! ## What a form keeps -/

namespace Binding

/-- The view of a call signature. -/
def signature (scope : ScopeId) (body : Option Body) (wrapsResult : Bool)
    (parameters : List TypeParameter) (returnType : Option TypeExpr) : Binding FunctionLike := do
  let id ← addFunctionSite ⟨scope, body, wrapsResult⟩
  let parameters ← typeParameters scope 0 parameters
  let returnType ← maybeTypeNode scope returnType
  pure ⟨id, parameters, returnType⟩

/-- The parameters of a function are seen as those of its type. -/
theorem functionParameters_eq (scope : ScopeId) (position : Nat) (parameters : List Syntax.Parameter) :
    functionParameters scope position parameters =
      typeParameters scope position (parameters.map Syntax.Parameter.typed) := by
  induction parameters generalizing position with
  | nil => simp only [functionParameters, List.map_nil, typeParameters]
  | cons parameter rest ih =>
    obtain ⟨name, _ | written, value⟩ := parameter
    · simp only [functionParameters, List.map_cons, Syntax.Parameter.typed, Option.map_none,
        typeParameters, maybeTypeNode, pure_bind, ih]
      rfl
    · simp only [functionParameters, List.map_cons, Syntax.Parameter.typed, Option.map_some,
        typeParameters, maybeTypeNode, ih, bind_map_left]
      rfl

theorem function_eq (scope : ScopeId) (definition : Function) :
    function scope definition = signature scope definition.body
      (definition.isAsync || definition.isGenerator)
        (definition.parameters.map Syntax.Parameter.typed) definition.returnType := by
  simp only [function, signature, functionParameters_eq]

theorem typeNode_function (scope : ScopeId) (parameters : List TypeParameter) (result : TypeExpr) :
    typeNode scope (.function parameters result) =
      addTypeSite scope (.function parameters result) >>= fun id =>
        (fun view => ⟨id, .function view⟩) <$> signature scope none false parameters (some result) := by
  simp only [typeNode, signature, maybeTypeNode, bind_map_left]
  rfl

end Binding

/-- A view that shows a function as a component of some name, or none. -/
structure Declaration.Shows (name : String) (exported : Bool) (signature : FunctionLike)
    (view : Declaration) : Prop where
  isValue : view.isValue = true
  signature? : view.signature? = some signature
  publicName : view.publicName = name
  exported : view.exported = exported

/-- A step that keeps the function of a form: `answer` is what it makes of the function, after which
nothing else is kept. Before, an annotation may have been kept. -/
def Keeps {α : Type} (scope : ScopeId) (definition : Function) (step : Binding α)
    (answer : FunctionLike → α) (index : Index) : Prop :=
  ∃ (sites : Array TypeSite) (body : Option Body) (wrapsResult : Bool),
    (∀ i < index.typeSites.size, sites[i]? = index.typeSites[i]?) ∧
    (definition.returnType = none → body = definition.body ∧
      wrapsResult = (definition.isAsync || definition.isGenerator)) ∧
    step.run index = (answer <$> Binding.signature scope body wrapsResult
      (definition.parameters.map Syntax.Parameter.typed) definition.returnType).run
        { index with typeSites := sites }

section

variable {name : String} {definition : Function} (file : ModuleFile)
  (aliases : List (String × String)) (scope : ScopeId) (exported : Bool) (index : Index)

theorem Syntax.Declarator.Declares.variableDecl {declarator : Declarator}
    (h : declarator.Declares name definition) : ∃ view : FunctionLike → Declaration,
      (∀ signature, (view signature).Shows ((aliases.lookup name).getD name) exported signature) ∧
        Keeps scope definition (Binding.variableDecl scope exported aliases declarator)
          (fun signature => some (view signature)) index := by
  cases h with
  | @value value hvalue =>
    refine ⟨fun signature => .varDecl ⟨name, aliases.lookup name, exported,
      some (.function signature), none⟩, fun _ => ⟨rfl, rfl, rfl, rfl⟩, index.typeSites,
      definition.body, definition.isAsync || definition.isGenerator, fun _ _ => rfl,
      fun _ => ⟨rfl, rfl⟩, ?_⟩
    rw [← Binding.function_eq]
    simp only [Binding.variableDecl, Binding.maybeTypeNode, Binding.initializer, hvalue, pure_bind]
    rfl
  | @typed result hresult =>
    have hsites : ∀ i < index.typeSites.size, (index.typeSites.push ⟨scope,
        .function (definition.parameters.map Syntax.Parameter.typed) result⟩)[i]? =
          index.typeSites[i]? := fun _ => Twins.getElem?_push_of_lt _ _
    refine ⟨fun signature => .varDecl ⟨name, aliases.lookup name, exported, none,
      some ⟨⟨index.typeSites.size⟩, .function signature⟩⟩, fun _ => ⟨rfl, rfl, rfl, rfl⟩, _, none,
      false, hsites, fun hnone => absurd hnone (by simp [hresult]), ?_⟩
    rw [hresult]
    simp only [Binding.variableDecl, Binding.maybeTypeNode, Binding.typeNode_function]
    rfl

theorem Syntax.Decl.Declares.bindDecl {decl : Decl} (h : decl.Declares name definition)
    (leading : List Comment) : ∃ view : FunctionLike → Declaration,
      (∀ signature, (view signature).Shows ((aliases.lookup name).getD name) exported signature) ∧
        Keeps scope definition (Binding.bindDecl file aliases scope exported leading decl)
          (fun signature => [view signature]) index := by
  cases h with
  | function =>
    refine ⟨fun signature => .funDecl ⟨some name, aliases.lookup name, exported, signature⟩,
      fun _ => ⟨rfl, rfl, ?_, rfl⟩, index.typeSites, definition.body,
      definition.isAsync || definition.isGenerator, fun _ _ => rfl, fun _ => ⟨rfl, rfl⟩, ?_⟩
    · simp only [Declaration.publicName]
      cases aliases.lookup name <;> rfl
    · rw [← Binding.function_eq]
      simp only [Binding.bindDecl]
      rfl
  | @binding declarator hdeclares =>
    obtain ⟨view, hview, sites, body, wrapsResult, hsites, hbody, hrun⟩ :=
      hdeclares.variableDecl aliases scope exported index
    refine ⟨view, hview, sites, body, wrapsResult, hsites, hbody, ?_⟩
    simp only [Binding.bindDecl, List.mapM_cons, List.mapM_nil, bind_assoc, pure_bind]
    refine (congrArg (fun result => ([result.1].filterMap id, result.2)) hrun).trans ?_
    rfl

end

/-! ## In step -/

namespace Twins

variable {t : Twins} {n : Stage} {index₁ index₂ : Index} {x y : ScopeId}

/-- Two call signatures are the same: by what they return, or by their annotation. -/
theorem signature_both (h : t.Agree n index₁ index₂) (hxy : (t.counterparts n).scope x y)
    {body body' : Option Body} {wraps wraps' : Bool} (parameters : List TypeParameter)
    (returnType : Option TypeExpr)
    (hresult : returnType = none → Option.Rel Body.SameReturns body body' ∧ wraps = wraps') :
    t.pairing.Both n index₁ index₂ (Binding.signature x body wraps parameters returnType)
      (Binding.signature y body' wraps' parameters returnType)
      fun n' view view' => (t.counterparts n').SameSignature view view' := by
  have hsite : t.pairing.Both n index₁ index₂ (Binding.addFunctionSite ⟨x, body, wraps⟩)
      (Binding.addFunctionSite ⟨y, body', wraps'⟩)
      fun n' f g => returnType = none → n'.function f g := by
    cases returnType with
    | none =>
      exact ⟨_, Stage.before_addFunction .., h.pushFunction ⟨hxy, (hresult rfl).1, (hresult rfl).2⟩,
        fun _ => .inr ⟨rfl, rfl⟩⟩
    | some result =>
      exact ⟨n, t.pairing.before_refl n, h.withFunctions (fun _ => getElem?_push_of_lt _ _)
        fun _ => getElem?_push_of_lt _ _, fun hnone => absurd hnone (Option.some_ne_none result)⟩
  refine hsite.bind fun n₁ _ _ _ _ hn₁ h₁ hid => ?_
  have hxy₁ := (t.within hn₁).scope hxy
  refine (Pairing.typeParameters_both (p := t.pairing) parameters 0 h₁ hxy₁).bind
    fun n₂ _ _ _ _ hn₂ h₂ hparameters => ?_
  have hxy₂ := (t.within hn₂).scope hxy₁
  cases returnType with
  | none =>
    exact .done h₂ (.mk (fun _ => hn₂.function (hid rfl)) hparameters .none)
  | some result =>
    have hnodes : t.pairing.Both n₂ _ _ (Binding.maybeTypeNode x (some result))
        (Binding.maybeTypeNode y (some result))
        fun n' node node' => node ≠ none ∧ (t.counterparts n').SameTyping node node' :=
      (Pairing.typeNode_both (p := t.pairing) result h₂ hxy₂).map
        fun _ node _ hnode => ⟨Option.some_ne_none node, .some hnode⟩
    refine hnodes.bind fun n₃ _ _ _ _ hn₃ h₃ hreturn => .done h₃ ?_
    exact .mk (fun hnone => absurd hnone hreturn.1) (hparameters.mono (t.within hn₃)) hreturn.2

/-- Two forms of the same function keep it in step. -/
theorem keeps_both {α β : Type} (h : t.Agree n index₁ index₂) (hxy : (t.counterparts n).scope x y)
    {definition definition' : Function} (hcall : definition.SameCall definition') {step : Binding α}
    {step' : Binding β} {answer : FunctionLike → α} {answer' : FunctionLike → β}
    (hkeeps : Keeps x definition step answer index₁)
    (hkeeps' : Keeps y definition' step' answer' index₂) {Q : Stage → α → β → Prop}
    (hanswer : ∀ n' view view', (t.counterparts n').SameSignature view view' →
      Q n' (answer view) (answer' view')) : t.pairing.Both n index₁ index₂ step step' Q := by
  obtain ⟨sites, body, wraps, hsites, hbody, hrun⟩ := hkeeps
  obtain ⟨sites', body', wraps', hsites', hbody', hrun'⟩ := hkeeps'
  rw [← hcall.parameters, ← hcall.returnType] at hrun'
  have hresult : definition.returnType = none →
      Option.Rel Body.SameReturns body body' ∧ wraps = wraps' := by
    intro hnone
    obtain ⟨rfl, rfl⟩ := hbody hnone
    obtain ⟨rfl, rfl⟩ := hbody' (hcall.returnType ▸ hnone)
    exact hcall.result hnone
  obtain ⟨n', hn', hagree, hq⟩ :=
    (signature_both (h.withTypes hsites hsites') hxy _ _ hresult).map hanswer
  refine ⟨n', hn', ?_, ?_⟩
  · rw [hrun, hrun']
    exact hagree
  · rw [hrun, hrun']
    exact hq

section

variable {first second : ModuleFile}

theorem shows_both {name : String} {exported : Bool} {n' : Stage} {signature signature' : FunctionLike}
    {view view' : Declaration} (hview : view.Shows name exported signature)
    (hview' : view'.Shows name exported signature')
    (hsame : (t.counterparts n').SameSignature signature signature') :
    (t.counterparts n').SameView view view' := by
  refine .value hview.isValue hview'.isValue ?_ ?_ ?_
  · rw [hview.signature?, hview'.signature?]
    exact .some hsame
  · rw [hview.publicName, hview'.publicName]
  · rw [hview.exported, hview'.exported]

theorem variableDecl_sameForms (h : t.Agree n index₁ index₂) (hxy : (t.counterparts n).scope x y)
    (exported : Bool) (aliases : List (String × String)) {declarator declarator' : Declarator}
    (hforms : declarator.SameForms declarator') :
    t.pairing.Both n index₁ index₂ (Binding.variableDecl x exported aliases declarator)
      (Binding.variableDecl y exported aliases declarator')
      fun n' view view' => Option.Rel (t.counterparts n').SameView view view' := by
  cases hforms with
  | refl => exact Pairing.variableDecl_both (p := t.pairing) h hxy exported aliases declarator
  | component hfirst hsecond hcall =>
    obtain ⟨view, hview, hkeeps⟩ := hfirst.variableDecl aliases x exported index₁
    obtain ⟨view', hview', hkeeps'⟩ := hsecond.variableDecl aliases y exported index₂
    exact keeps_both h hxy hcall hkeeps hkeeps'
      fun _ _ _ hsame => .some (shows_both (hview _) (hview' _) hsame)

theorem variableDecls_sameForms (h : t.Agree n index₁ index₂) (hxy : (t.counterparts n).scope x y)
    (exported : Bool) (aliases : List (String × String)) {declarators declarators' : List Declarator}
    (hforms : List.Forall₂ Declarator.SameForms declarators declarators') :
    t.pairing.Both n index₁ index₂ (declarators.mapM (Binding.variableDecl x exported aliases))
      (declarators'.mapM (Binding.variableDecl y exported aliases))
      fun n' views views' =>
        (t.counterparts n').SameViews (views.filterMap id) (views'.filterMap id) := by
  induction hforms generalizing n index₁ index₂ with
  | nil => exact .done h .nil
  | cons hdeclarator _ ih =>
    rw [List.mapM_cons, List.mapM_cons]
    refine (variableDecl_sameForms h hxy exported aliases hdeclarator).bind
      fun n₁ _ _ _ _ hn₁ h₁ hview => ?_
    refine (ih h₁ ((t.within hn₁).scope hxy)).bind fun n₂ _ _ _ _ hn₂ h₂ hrest => .done h₂ ?_
    cases hview with
    | none => exact hrest
    | some hview => exact .cons (hview.mono (t.within hn₂)) hrest

theorem bindDecl_component {name : String} {definition definition' : Function} {decl decl' : Decl}
    (hfirst : decl.Declares name definition) (hsecond : decl'.Declares name definition')
    (hcall : definition.SameCall definition') (aliases : List (String × String)) (exported : Bool)
    (leading : List Comment) (h : t.Agree n index₁ index₂) (hxy : (t.counterparts n).scope x y) :
    t.pairing.BothShow n index₁ index₂ (Binding.bindDecl first aliases x exported leading decl)
      (Binding.bindDecl second aliases y exported leading decl') := by
  obtain ⟨view, hview, hkeeps⟩ := hfirst.bindDecl first aliases x exported index₁ leading
  obtain ⟨view', hview', hkeeps'⟩ := hsecond.bindDecl second aliases y exported index₂ leading
  exact keeps_both h hxy hcall hkeeps hkeeps'
    fun _ _ _ hsame => .cons (shows_both (hview _) (hview' _) hsame) .nil

theorem bindDecl_variables {declarators declarators' : List Declarator}
    (hdeclarators : List.Forall₂ Declarator.SameForms declarators declarators')
    (aliases : List (String × String)) (exported : Bool) (leading : List Comment)
    (h : t.Agree n index₁ index₂) (hxy : (t.counterparts n).scope x y) :
    t.pairing.BothShow n index₁ index₂
      (Binding.bindDecl first aliases x exported leading (.variables declarators))
      (Binding.bindDecl second aliases y exported leading (.variables declarators')) := by
  simp only [Binding.bindDecl]
  exact (variableDecls_sameForms h hxy exported aliases hdeclarators).bind
    fun _ _ _ _ _ _ h' hviews => .done h' hviews

/-- The global scope is shared, so a `declare global` block does no harm. -/
theorem bothShowing_implies (global : Bool) : t.pairing.bothShowing.Implies global true :=
  fun _ _ _ _ hshow hglobal => hshow fun _ => hglobal rfl

/-- Functions in other forms are bound side by side. -/
def formsCorrespondence
    (hfiles : ∀ source, Option.Rel t.module (first.dependency? source) (second.dependency? source)) :
    t.pairing.bothShowing.Correspondence first second where
  Decls _ _ _ decl decl' global := decl.SameForms decl' ∧ global = true
  Bodies body body' global := body.SameForms body' ∧ global = true
  Lists _ items items' global := SameItems items items' ∧ global = true
  Items _ item item' global := item.SameForms item' ∧ global = true
  decl_cases := by
    rintro aliases exported leading _ _ _ ⟨hforms, rfl⟩
    cases hforms with
    | refl =>
      exact .leaf fun _ _ hglobal _ _ _ h hxy => Pairing.bindDecl_both (p := t.pairing) hfiles _
        (fun _ => hglobal rfl) aliases exported leading h hxy
    | component hfirst hsecond hcall =>
      exact .leaf fun _ _ _ _ _ _ h hxy =>
        bindDecl_component hfirst hsecond hcall aliases exported leading h hxy
    | «variables» hdeclarators =>
      exact .leaf fun _ _ _ _ _ _ h hxy => bindDecl_variables hdeclarators aliases exported leading h hxy
    | namespaceDecl hbody => exact .namespaceDecl ⟨hbody, rfl⟩ (bothShowing_implies _)
  body_cases := by
    rintro _ _ _ ⟨hforms, rfl⟩
    cases hforms with
    | absent => exact .absent (bothShowing_implies _)
    | nested hbody => exact .nested ⟨hbody, rfl⟩ (bothShowing_implies _)
    | @items items items' hitems =>
      have hclauses : ∀ x y, t.pairing.bothShowing.Holds x y
          (Binding.bindActs first x (clauseActs items))
          (Binding.bindActs second y (clauseActs items'))
            (t.pairing.bothShowing.ofActs (fun _ => false) (clauseActs items')) := by
        intro x y
        rw [Binding.bindActs_clauses, hitems.clauses first x, ← Binding.bindActs_clauses]
        exact Binding.Judgement.holds_acts (Pairing.bothShowingLedger (p := t.pairing) hfiles).act _ x y
      exact .items hclauses hitems.exportAliases ⟨hitems, rfl⟩ (bothShowing_implies _)
  list_cases := by
    rintro _ _ _ _ ⟨hforms, rfl⟩
    cases hforms with
    | nil => exact .nil (bothShowing_implies _)
    | cons hitem hrest => exact .cons ⟨hitem, rfl⟩ ⟨hrest, rfl⟩ (bothShowing_implies _)
  item_cases := by
    rintro aliases _ _ _ ⟨hforms, rfl⟩
    cases hforms with
    | refl =>
      exact .leaf fun _ _ hglobal _ _ _ h hxy => Pairing.bindItem_both (p := t.pairing) hfiles _
        (fun _ => hglobal rfl) aliases h hxy
    | declaration hdecl => exact .declaration ⟨hdecl, rfl⟩ (bothShowing_implies _)
    | exportDecl hdecl => exact .exportDecl ⟨hdecl, rfl⟩ (bothShowing_implies _)

theorem bindBody_sameForms
    (hfiles : ∀ source, Option.Rel t.module (first.dependency? source) (second.dependency? source))
    {body body' : NamespaceBody} (hforms : body.SameForms body') (h : t.Agree n index₁ index₂)
    (hxy : (t.counterparts n).scope x y) :
    t.pairing.BothShow n index₁ index₂ (Binding.bindBody first x body)
      (Binding.bindBody second y body') :=
  (formsCorrespondence hfiles).bindBody body ⟨hforms, rfl⟩ x y (fun _ => t.sharesGlobal) h hxy

end

end Twins

/-! ## Programs -/

/-- The form of a declaration does no harm. -/
theorem harmless_sameForms : Harmless SourceTree.SameForms where
  refl := SourceTree.sameForms_refl
  specifiers := SourceTree.SameForms.specifiers
  isScript := SourceTree.SameForms.isScript
  binding _ _ _ hforms hpath hfiles :=
    ⟨congrArg Path.text hpath, fun h hxy => Twins.bindBody_sameForms hfiles (.items hforms) h hxy⟩

/-- A program has the same document whichever form its functions are declared in. -/
theorem documentFiles_sameForms {tree tree' : FileTree} (hrooted : tree.IsRooted)
    (h : tree.Rewritten SourceTree.SameForms tree') (roots : List Path) (mode : SchemaMode) :
    documentFiles tree roots mode = documentFiles tree' roots mode :=
  harmless_sameForms.documentFiles_eq hrooted h roots mode

/-- Components in the form of functions. -/
def functionTree : FileTree where
  entries := [(["a.tsx"], .file "export function A(p: P) { return <a />; }"),
    (["b.tsx"], .file "namespace N { export function B(): JSX.Element { return <b />; } }"),
    (["p.ts"], .file "interface P { n: number }")]
  current := []

/-- The same components in the form of variables. -/
def variableTree : FileTree where
  entries := [(["a.tsx"], .file "export const A = (p: P) => <a />;"),
    (["b.tsx"], .file "namespace N { export declare const B: () => JSX.Element; }"),
    (["p.ts"], .file "interface P { n: number }")]
  current := []

/-- The component `A`, which is not annotated. -/
def elementFunction (body : Body) : Function :=
  ⟨[⟨some "p", some ⟨.reference (.ident "P"), "P"⟩, none⟩], none, some body, false, false⟩

/-- The type of elements. -/
def elementType : TypeExpr := .reference (.qualified (.ident "JSX") "Element")

/-- The component `B`, which is annotated. -/
def annotatedFunction : Function :=
  ⟨[], some elementType, some (.block [.returns (some (.jsx []))]), false, false⟩

set_option maxRecDepth 100000 in
theorem functionTree_rewritten : functionTree.Rewritten SourceTree.SameForms variableTree where
  current := rfl
  entries := by
    have hfirst : SourceTree.parse (Variant.ofPath "a.tsx") "export function A(p: P) { return <a />; }" =
        .ok ⟨[⟨[], .exportDecl (.function "A"
          (elementFunction (.block [.returns (some (.jsx []))])))⟩]⟩ := by
      rfl
    have hsecond : SourceTree.parse (Variant.ofPath "a.tsx") "export const A = (p: P) => <a />;" =
        .ok ⟨[⟨[], .exportDecl (.variables [⟨some "A", none,
          some (.arrow (elementFunction (.expression (.jsx []))))⟩])⟩]⟩ := by
      rfl
    have hthird : SourceTree.parse (Variant.ofPath "b.tsx")
        "namespace N { export function B(): JSX.Element { return <b />; } }" =
        .ok ⟨[⟨[], .declaration (.namespaceDecl (.identifier "N") (.items [⟨[], .exportDecl
          (.function "B" annotatedFunction)⟩]))⟩]⟩ := by
      rfl
    have hfourth : SourceTree.parse (Variant.ofPath "b.tsx")
        "namespace N { export declare const B: () => JSX.Element; }" =
        .ok ⟨[⟨[], .declaration (.namespaceDecl (.identifier "N") (.items [⟨[], .exportDecl
          (.variables [⟨some "B", some (.function [] elementType), none⟩])⟩]))⟩]⟩ := by
      rfl
    have htyped : Decl.Declares "B" annotatedFunction
        (.variables [⟨some "B", some (.function [] elementType), none⟩]) := .binding (.typed rfl)
    refine .cons ⟨rfl, .source rfl hfirst hsecond ?_⟩
      (.cons ⟨rfl, .source rfl hthird hfourth ?_⟩ (.cons ⟨rfl, .same _⟩ .nil))
    · refine .cons (.exportDecl (.component .function (.binding (.value rfl)) ?_)) .nil
      exact ⟨rfl, rfl, fun _ => ⟨.some (.expression _), rfl⟩⟩
    · refine .cons (.declaration (.namespaceDecl (.items
        (.cons (.exportDecl (.component .function htyped ?_)) .nil)))) .nil
      exact ⟨rfl, rfl, fun hnone => nomatch hnone⟩

set_option maxRecDepth 100000 in
theorem documentFiles_variableTree :
    functionTree.IsRooted ∧ functionTree.Rewritten SourceTree.SameForms variableTree ∧
      (documentFiles functionTree [⟨"a.tsx"⟩, ⟨"b.tsx"⟩, ⟨"p.ts"⟩] .repeated).toOption.map
          (fun document => document.components.map (·.name)) = some ["A", "B"] ∧
        documentFiles functionTree [⟨"a.tsx"⟩, ⟨"b.tsx"⟩, ⟨"p.ts"⟩] .repeated =
          documentFiles variableTree [⟨"a.tsx"⟩, ⟨"b.tsx"⟩, ⟨"p.ts"⟩] .repeated := by
  have hrooted : functionTree.IsRooted := by decide
  refine ⟨hrooted, functionTree_rewritten, by decide +kernel, ?_⟩
  exact documentFiles_sameForms hrooted functionTree_rewritten _ _

end ComponentSchema
