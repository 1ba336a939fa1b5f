import ComponentSchema.Classify
import ComponentSchema.Proofs.Binder.ViewIds

/-!
# Names and their segments

A name nests to the left, and its segments are the same name as a list: neither says more than the other.
An annotation that reads `JSX.Element` is told by the shape of its name, and a name is resolved by its
segments, so both look at the same thing.

Results.
* `EntityName.segments_foldl`: by induction on the segments that are added.
* `Index.ShowsType.reference_iff`: a node is a reference just if the annotation behind its id is.
* `Index.ShowsFiles.returns`: by induction on what is shown.
* `names_by_segments`: names as segments, and which signatures read `JSX.Element`.
-/
namespace ComponentSchema

open Syntax

/-! ## Names -/

namespace EntityName

/-- Each segment that is added stands at the end. -/
theorem segments_foldl (name : EntityName) (rest : List String) :
    (rest.foldl qualified name).segments = name.segments ++ rest := by
  induction rest generalizing name with
  | nil => exact (List.append_nil _).symm
  | cons segment rest ih => rw [List.foldl_cons, ih, segments_qualified, List.append_assoc]; rfl

theorem ofSegments?_concat (segments : List String) (name : EntityName) (segment : String)
    (h : ofSegments? segments = some name) :
    ofSegments? (segments ++ [segment]) = some (name.qualified segment) := by
  cases segments with
  | nil => cases h
  | cons first rest =>
    obtain rfl := Option.some.inj h
    simp [ofSegments?, List.foldl_append]

theorem ofSegments?_segments (name : EntityName) : ofSegments? name.segments = some name := by
  induction name with
  | ident name => rfl
  | qualified left name ih => exact ofSegments?_concat _ _ _ ih

theorem map_segments_ofSegments? (segments : List String) :
    (ofSegments? segments).map EntityName.segments = if segments = [] then none else some segments := by
  cases segments with
  | nil => rfl
  | cons first rest => simp [ofSegments?, segments_foldl]

theorem segments_inj {name other : EntityName} (h : name.segments = other.segments) : name = other := by
  have hsome := ofSegments?_segments name
  rw [h, ofSegments?_segments] at hsome
  exact (Option.some.inj hsome).symm

end EntityName

/-! ## Annotations that read an element -/

/-- Whether an annotation of the view reads `JSX.Element`. -/
def TypeNode.readsElement (node : TypeNode) : Bool :=
  match node.shape with
  | .reference (.qualified (.ident qualifier) name) => qualifier == "JSX" && name == "Element"
  | _ => false

theorem FunctionLike.annotatedJsxElement_eq (signature : FunctionLike) :
    signature.annotatedJsxElement = signature.returnType.any TypeNode.readsElement := by
  obtain ⟨id, parameters, _ | ⟨node, shape⟩⟩ := signature
  · rfl
  · rcases shape with (_ | ⟨_ | _, _⟩) | _ | _ <;> rfl

theorem TypeNode.readsElement_iff (node : TypeNode) : node.readsElement = true ↔
    ∃ name, node.shape = .reference name ∧ name.segments = jsxElementSegments := by
  constructor
  · intro h
    obtain ⟨id, shape⟩ := node
    cases shape with
    | function | other => cases h
    | reference name =>
      cases name with
      | ident => cases h
      | qualified left segment =>
        cases left with
        | qualified => cases h
        | ident qualifier =>
          obtain ⟨hqualifier, hsegment⟩ := Bool.and_eq_true_iff.1 h
          exact ⟨_, rfl, by rw [EntityName.segments, eq_of_beq hqualifier, eq_of_beq hsegment]; rfl⟩
  · rintro ⟨name, hshape, hsegments⟩
    obtain rfl : name = .qualified (.ident "JSX") "Element" := EntityName.segments_inj hsegments
    rw [TypeNode.readsElement, hshape]
    rfl

/-- The return annotation has the shape just if it is a reference with the segments. -/
theorem FunctionLike.annotatedJsxElement_iff (signature : FunctionLike) :
    signature.annotatedJsxElement = true ↔ ∃ node name, signature.returnType = some node ∧
      node.shape = .reference name ∧ name.segments = jsxElementSegments := by
  rw [FunctionLike.annotatedJsxElement_eq, Option.any_eq_true]
  simp only [TypeNode.readsElement_iff]
  constructor
  · rintro ⟨node, hreturn, name, hname⟩
    exact ⟨node, name, hreturn, hname⟩
  · rintro ⟨node, name, hreturn, hname⟩
    exact ⟨node, hreturn, name, hname⟩

/-! ## Annotations in a view -/

namespace Index

variable {index : Index} {x : ScopeId}

/-- A node is a reference just if the annotation behind its id is. -/
theorem ShowsType.reference_iff {type : TypeExpr} {node : TypeNode} (h : index.ShowsType x type node)
    (name : EntityName) : node.shape = .reference name ↔
      ∃ scope, index.typeSites[node.id.index]? = some ⟨scope, .reference name⟩ := by
  have hshown : ∀ (id : NodeId) (type : TypeExpr), index.typeSites[id.index]? = some ⟨x, type⟩ →
      ((∃ scope, index.typeSites[id.index]? = some ⟨scope, .reference name⟩) ↔
        type = .reference name) := by
    intro id type hsite
    rw [hsite]
    exact ⟨fun ⟨_, heq⟩ => (TypeSite.mk.inj (Option.some.inj heq)).2, fun heq => ⟨x, by rw [heq]⟩⟩
  cases h with
  | reference hsite =>
    rw [hshown _ _ hsite, TypeShape.reference.injEq, TypeExpr.reference.injEq]
  | function hsite => simp [hshown _ _ hsite]
  | other hother hsite =>
    rw [hshown _ _ hsite]
    exact ⟨nofun, fun heq => by rw [heq] at hother; cases hother⟩

/-- Each signature among the parts shows what it returns. -/
def ShowsReturns (index : Index) (parts : ViewParts) : Prop :=
  ∀ signature ∈ parts.signatures, ∃ x type, index.ShowsTyping x type signature.returnType

@[simp] theorem showsReturns_empty : index.ShowsReturns ∅ := fun _ h => nomatch h

@[simp] theorem showsReturns_append {parts others : ViewParts} :
    index.ShowsReturns (parts ++ others) ↔ index.ShowsReturns parts ∧ index.ShowsReturns others :=
  List.forall_mem_append

@[simp] theorem showsReturns_node (node : TypeNode) : index.ShowsReturns ⟨[node], [], []⟩ :=
  fun _ h => nomatch h

@[simp] theorem showsReturns_signature {signature : FunctionLike} :
    index.ShowsReturns ⟨[], [signature], []⟩ ↔
      ∃ x type, index.ShowsTyping x type signature.returnType :=
  List.forall_mem_singleton

mutual

theorem ShowsType.returns : ∀ {type : TypeExpr} {node : TypeNode}, index.ShowsType x type node →
    index.ShowsReturns node.parts
  | _, _, .reference _ => by simp [TypeNode.parts, TypeShape.parts]
  | _, _, .function _ _ hparameters hreturn => by
    simp only [TypeNode.parts, TypeShape.parts, FunctionLike.parts, partsOfTyping, showsReturns_append,
      showsReturns_node, showsReturns_signature, true_and]
    exact ⟨⟨⟨x, _, .some hreturn⟩, hparameters.returns⟩, hreturn.returns⟩
  | _, _, .other _ _ => by simp [TypeNode.parts, TypeShape.parts]

theorem ShowsTypeParameters.returns : ∀ {parameters : List TypeParameter} {views : List Parameter},
    index.ShowsTypeParameters x parameters views → index.ShowsReturns (partsOfParameters views)
  | _, _, .nil => showsReturns_empty
  | _, _, .cons hparameter hrest => by
    rw [partsOfParameters_cons, showsReturns_append]
    exact ⟨hparameter.returns, hrest.returns⟩

theorem ShowsTyping.returns : ∀ {type : Option TypeExpr} {node : Option TypeNode},
    index.ShowsTyping x type node → index.ShowsReturns (partsOfTyping node)
  | _, _, .none => showsReturns_empty
  | _, _, .some hnode => hnode.returns

end

theorem ShowsFunction.returns {definition : Function} {signature : FunctionLike}
    (h : index.ShowsFunction x definition signature) : index.ShowsReturns signature.parts := by
  have hparameters : ∀ {parameters : List Syntax.Parameter} {views : List Parameter},
      List.Forall₂ (fun parameter view =>
        index.ShowsTyping x (parameter.written.map (·.type)) view.typeNode) parameters views →
        index.ShowsReturns (partsOfParameters views) := by
    intro parameters views hshows
    induction hshows with
    | nil => exact showsReturns_empty
    | cons hparameter _ ih =>
      rw [partsOfParameters_cons, showsReturns_append]
      exact ⟨hparameter.returns, ih⟩
  rw [FunctionLike.parts_eq, showsReturns_append, showsReturns_append, showsReturns_signature]
  exact ⟨⟨⟨x, _, h.returnType⟩, hparameters h.parameters⟩, h.returnType.returns⟩

theorem ShowsInitializer.returns {value : Option Expr} {view : Option Initializer}
    (h : index.ShowsInitializer x value view) : index.ShowsReturns (partsOfInitializer view) := by
  cases h with
  | none | value => exact showsReturns_empty
  | function _ hsignature => exact hsignature.returns

theorem ShowsVariables.returns {declarators : List Declarator} {views : List Declaration}
    (h : index.ShowsVariables x declarators views) :
    index.ShowsReturns (partsOfDeclarations views) := by
  induction h with
  | nil => exact showsReturns_empty
  | pattern _ _ ih => exact ih
  | cons _ htype hvalue _ ih =>
    exact showsReturns_append.2 ⟨showsReturns_append.2 ⟨htype.returns, hvalue.returns⟩, ih⟩

/-- What holds of the parts of a declaration holds of those of the view that is made of it alone. -/
theorem ShowsReturns.alone {declaration : Declaration} (h : index.ShowsReturns declaration.parts) :
    index.ShowsReturns (partsOfDeclarations [declaration]) :=
  showsReturns_append.2 ⟨h, showsReturns_empty⟩

mutual

theorem ShowsDecl.returns : ∀ {x : ScopeId} {leading : List Comment} {decl : Decl}
    {views : List Declaration} {blocks : List ScopeId}, index.ShowsDecl x leading decl views blocks →
      index.ShowsReturns (partsOfDeclarations views)
  | _, _, _, _, _, .function _ hsignature => .alone hsignature.returns
  | _, _, _, _, _, .variables hvariables => hvariables.returns
  | _, _, _, _, _, .classDecl _ => .alone fun _ h => nomatch h
  | _, _, _, _, _, .hidden _ => showsReturns_empty
  | _, _, _, _, _, .global hbody => .alone hbody.returns
  | _, _, _, _, _, .identifier _ hbody => .alone hbody.returns
  | _, _, _, _, _, .string _ _ _ hbody => .alone hbody.returns

theorem ShowsBody.returns : ∀ {x : ScopeId} {body : NamespaceBody} {views : List Declaration}
    {blocks : List ScopeId}, index.ShowsBody x body views blocks →
      index.ShowsReturns (partsOfDeclarations views)
  | _, _, _, _, .absent => showsReturns_empty
  | _, _, _, _, .nested _ hbody => .alone hbody.returns
  | _, _, _, _, .items hitems => hitems.returns

theorem ShowsItems.returns : ∀ {x : ScopeId} {items : List Item} {views : List Declaration}
    {blocks : List ScopeId}, index.ShowsItems x items views blocks →
      index.ShowsReturns (partsOfDeclarations views)
  | _, _, _, _, .nil => showsReturns_empty
  | _, _, _, _, .cons hitem hrest => by
    rw [partsOfDeclarations_append, showsReturns_append]
    exact ⟨hitem.returns, hrest.returns⟩

theorem ShowsItem.returns : ∀ {x : ScopeId} {item : Item} {views : List Declaration}
    {blocks : List ScopeId}, index.ShowsItem x item views blocks →
      index.ShowsReturns (partsOfDeclarations views)
  | _, _, _, _, .declaration hdecl => hdecl.returns
  | _, _, _, _, .exportDecl hdecl => hdecl.returns
  | _, _, _, _, .exportDefaultFunction _ hsignature => .alone hsignature.returns
  | _, _, _, _, .exportDefaultClass _ => .alone fun _ h => nomatch h
  | _, _, _, _, .hidden _ => showsReturns_empty

end

theorem ShowsFiles.returns {entries : List (ModuleId × ModuleFile)} {views : List SourceFile}
    {blocks : List ScopeId} (h : index.ShowsFiles entries views blocks) :
    index.ShowsReturns (partsOfFiles views) := by
  induction h with
  | nil => exact showsReturns_empty
  | cons _ hitems _ ih => exact showsReturns_append.2 ⟨hitems.returns, ih⟩

/-- A signature reads `JSX.Element` just if the annotation behind what it returns is a reference with
these segments. -/
theorem annotatedJsxElement_iff_site {signature : FunctionLike} {type : Option TypeExpr}
    (h : index.ShowsTyping x type signature.returnType) : signature.annotatedJsxElement = true ↔
      ∃ node scope name, signature.returnType = some node ∧
        index.typeSites[node.id.index]? = some ⟨scope, .reference name⟩ ∧
          name.segments = jsxElementSegments := by
  rw [FunctionLike.annotatedJsxElement_iff]
  have hreference : ∀ node name, signature.returnType = some node →
      (node.shape = .reference name ↔
        ∃ scope, index.typeSites[node.id.index]? = some ⟨scope, .reference name⟩) := by
    intro node name hreturn
    rw [hreturn] at h
    cases h with
    | some hnode => exact hnode.reference_iff name
  constructor
  · rintro ⟨node, name, hreturn, hshape, hname⟩
    obtain ⟨scope, hsite⟩ := (hreference node name hreturn).1 hshape
    exact ⟨node, scope, name, hreturn, hsite, hname⟩
  · rintro ⟨node, scope, name, hreturn, hsite, hname⟩
    exact ⟨node, name, hreturn, (hreference node name hreturn).2 ⟨scope, hsite⟩, hname⟩

end Index

/-! ## Programs -/

/-- A name and its segments determine each other, a reference is resolved by the segments of its name,
and the signatures that read `JSX.Element` are those whose return annotation is a reference with these
segments: by the name in the view, and so by what the index keeps for a program. -/
theorem names_by_segments :
    (∀ segments : List String, (EntityName.ofSegments? segments).map EntityName.segments =
      if segments = [] then none else some segments) ∧
    (∀ name : EntityName, EntityName.ofSegments? name.segments = some name) ∧
    (∀ signature : FunctionLike, signature.annotatedJsxElement = true ↔
      ∃ id name, signature.returnType = some ⟨id, .reference name⟩ ∧
        name.segments = jsxElementSegments) ∧
    (∀ (modules : Modules), ∀ signature ∈ (partsOfFiles modules.bind.1).signatures,
      signature.annotatedJsxElement = true ↔
        ∃ node scope name, signature.returnType = some node ∧
          modules.bind.2.typeSites[node.id.index]? = some ⟨scope, .reference name⟩ ∧
            name.segments = jsxElementSegments) ∧
    ∀ (index : Index) (declared : DeclId → Resolve (Option TypeId)) (scope : ScopeId)
      (aliasName : Option String) (name : EntityName),
      Resolve.resolveWith index declared scope aliasName (.reference name) =
        Resolve.resolveName index declared scope name.segments := by
  refine ⟨EntityName.map_segments_ofSegments?, EntityName.ofSegments?_segments, fun signature => ?_,
    fun modules signature hsignature => ?_, fun _ _ _ _ _ => by rw [Resolve.resolveWith]⟩
  · rw [FunctionLike.annotatedJsxElement_iff]
    constructor
    · rintro ⟨⟨id, shape⟩, name, hreturn, rfl, hname⟩
      exact ⟨id, name, hreturn, hname⟩
    · rintro ⟨id, name, hreturn, hname⟩
      exact ⟨⟨id, .reference name⟩, name, hreturn, rfl, hname⟩
  · obtain ⟨-, blocks, -, hfiles⟩ := modules.bind_lowers
    obtain ⟨x, type, hshows⟩ := hfiles.returns signature hsignature
    exact Index.annotatedJsxElement_iff_site hshows

/-- A function type in a namespace. -/
def elementModules : Modules where
  files := #[⟨⟨"b.tsx"⟩, ⟨[⟨[], .declaration (.namespaceDecl (.identifier "N") (.items [⟨[], .exportDecl
    (.variables [⟨some "B", some (.function [] (.reference (.qualified (.ident "JSX") "Element"))),
      none⟩])⟩]))⟩]⟩, []⟩]
  order := [⟨0⟩]

theorem names_by_segments_elementModules :
    let signature : FunctionLike := ⟨⟨0⟩, [], some ⟨⟨1⟩, .reference (.qualified (.ident "JSX") "Element")⟩⟩
    signature ∈ (partsOfFiles elementModules.bind.1).signatures ∧
      ∃ node scope name, signature.returnType = some node ∧
        elementModules.bind.2.typeSites[node.id.index]? = some ⟨scope, .reference name⟩ ∧
          name.segments = jsxElementSegments := by
  intro signature
  have hmem : signature ∈ (partsOfFiles elementModules.bind.1).signatures := .head _
  exact ⟨hmem, (names_by_segments.2.2.2.1 elementModules signature hmem).1 rfl⟩

end ComponentSchema
