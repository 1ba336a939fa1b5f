import ComponentSchema.Proofs.Comparison.CounterpartTypes
import ComponentSchema.Proofs.Comparison.CounterpartViews
import ComponentSchema.Proofs.Traversal.FileContributions

/-!
# Counterparts contribute the same

In two indices that are alike, the views of a shared file contribute the same components and the same
schemas: names, properties and schemas hold no ids.

Results.
* `Counterparts.Alike.adjoin`: two annotations that neither view has may be taken for counterparts.
* `Counterparts.Alike.returnSymbol`: counterparts return the same.
* `Counterparts.Alike.schemas`: the schemas that a type needs.
* `Counterparts.Alike.component`, `Counterparts.Alike.candidateSchemas`: what a candidate contributes.
-/
namespace ComponentSchema

open Syntax

namespace Counterparts

variable {c : Counterparts} {index₁ index₂ : Index} {x y : ScopeId}

/-! ## The origin of casts -/

/-- Two more annotations are counterparts. -/
def adjoin (c : Counterparts) (i j : NodeId) : Counterparts :=
  { c with node := fun n m => c.node n m ∨ n = i ∧ m = j }

theorem within_adjoin (c : Counterparts) (i j : NodeId) : c.Within (c.adjoin i j) where
  module := id
  scope := id
  decl := id
  node := .inl
  function := id
  classSite := id

/-- Two annotations that neither view has may be taken for counterparts. -/
theorem Alike.adjoin (halike : c.Alike index₁ index₂) (hvalid : ∀ {n m : NodeId}, c.node n m →
      n.index < index₁.typeSites.size ∧ m.index < index₂.typeSites.size) :
    (c.adjoin ⟨index₁.typeSites.size⟩ ⟨index₂.typeSites.size⟩).Alike index₁ index₂ :=
  have hwithin := c.within_adjoin ⟨index₁.typeSites.size⟩ ⟨index₂.typeSites.size⟩
  { halike with
    scopes := fun hxy => (halike.scopes hxy).mono hwithin
    decls := fun hde => rel_mono (fun _ _ => .mono hwithin) (halike.decls hde)
    sites := by
      rintro n m (hnm | ⟨rfl, rfl⟩)
      · exact rel_mono (fun _ _ => .mono hwithin) (halike.sites hnm)
      · simp only [Array.getElem?_size]
        exact .none
    functions := fun hfg => rel_mono (fun _ _ => .mono hwithin) (halike.functions hfg)
    nodeUnique := by
      rintro n m n' m' (hnm | ⟨rfl, rfl⟩) (hnm' | ⟨rfl, rfl⟩)
      · exact halike.nodeUnique hnm hnm'
      · obtain ⟨hn, hm⟩ := hvalid hnm
        refine iff_of_false ?_ ?_
        · rintro rfl
          exact Nat.lt_irrefl _ hn
        · rintro rfl
          exact Nat.lt_irrefl _ hm
      · obtain ⟨hn, hm⟩ := hvalid hnm'
        refine iff_of_false ?_ ?_
        · rintro rfl
          exact Nat.lt_irrefl _ hn
        · rintro rfl
          exact Nat.lt_irrefl _ hm
      · exact iff_of_true rfl rfl }

/-! ## Returned values -/

/-- The same is known of two returned values. -/
inductive SameReturned (c : Counterparts) : Returned → Returned → Prop where
  | jsx : SameReturned c .jsx .jsx
  | nullish : SameReturned c .nullish .nullish
  | type {o o' : TypeOrigin} {symbol : Option TypeSymbol} (h : c.SameOrigin o o') :
    SameReturned c (.type o symbol) (.type o' symbol)
  | unknown : SameReturned c .unknown .unknown

section

variable {r r' k k' : Returned}

theorem SameReturned.unique (halike : c.Alike index₁ index₂) (h : SameReturned c r r')
    (h' : SameReturned c k k') : r = k ↔ r' = k' := by
  cases h with
  | type ho =>
    cases h' with
    | type ho' => simp [ho.unique halike ho']
    | jsx | nullish | unknown => simp
  | jsx | nullish | unknown => cases h' <;> simp

theorem SameReturned.combine (halike : c.Alike index₁ index₂) (h : SameReturned c r r')
    (h' : SameReturned c k k') : SameReturned c (r.combine k) (r'.combine k') := by
  classical
  have hleft := h
  have hright := h'
  have hboth : SameReturned c (if r = k then r else .unknown) (if r' = k' then r' else .unknown) := by
    by_cases hrk : r = k
    · rw [if_pos hrk, if_pos ((h.unique halike h').1 hrk)]
      exact h
    · rw [if_neg hrk, if_neg fun hrk' => hrk ((h.unique halike h').2 hrk')]
      exact .unknown
  cases h <;> cases h' <;> first | exact hboth | exact hright | exact hleft

theorem SameReturned.symbol? (halike : c.Alike index₁ index₂) (hxy : c.scope x y)
    (h : SameReturned c r r') :
    r.symbol? index₁ x = r'.symbol? index₂ y := by
  cases h with
  | jsx =>
    rcases rel_cases (halike.outlineOfName halike.declMeaning hxy jsxElementSegments) with
      ⟨hx, hy⟩ | ⟨v, v', hx, hy, hv⟩
    · simp only [Returned.symbol?, hx, hy]
    · simp only [Returned.symbol?, hx, hy, Option.bind_some, hv.symbol]
  | nullish | type | unknown => rfl

end

section

variable (halike : c.Alike index₁ index₂) (hcast : c.SameOrigin index₁.castOrigin index₂.castOrigin)
include halike hcast

theorem Alike.returnedCast (hxy : c.scope x y) (type : TypeExpr) :
    SameReturned c (returnedCast index₁ x type) (returnedCast index₂ y type) := by
  unfold ComponentSchema.returnedCast
  rcases rel_cases (halike.outlineOf halike.declMeaning hxy hcast none type) with
    ⟨hx, hy⟩ | ⟨v, v', hx, hy, hv⟩
  · rw [hx, hy]
    exact .unknown
  · rw [hx, hy]
    simp only
    by_cases ho : v.origin = index₁.castOrigin
    · rw [if_pos ho, if_pos ((hv.origin.unique halike hcast).1 ho)]
      exact .unknown
    · rw [if_neg ho, if_neg fun ho' => ho ((hv.origin.unique halike hcast).2 ho'), hv.symbol]
      exact .type hv.origin

theorem Alike.returnedExpr (hxy : c.scope x y) (value : Expr) :
    SameReturned c (returnedExpr index₁ x value) (returnedExpr index₂ y value) := by
  fun_induction ComponentSchema.returnedExpr index₁ x value with
  | case1 => exact .jsx
  | case2 inner ih | case8 _ inner ih | case11 inner ih | case12 inner ih | case13 inner ih =>
    rw [ComponentSchema.returnedExpr]
    exact ih
  | case3 | case6 => exact .nullish
  | case4 name hname =>
    rw [ComponentSchema.returnedExpr, if_pos hname]
    exact .nullish
  | case5 name hname =>
    rw [ComponentSchema.returnedExpr, if_neg hname]
    exact .unknown
  | case7 _ left right ih ih' | case9 left right ih ih' =>
    rw [ComponentSchema.returnedExpr]
    exact ih.combine halike ih'
  | case10 _ type =>
    rw [ComponentSchema.returnedExpr]
    exact halike.returnedCast hcast hxy type
  | case14 | case15 | case16 | case17 => exact .type .keyword
  | case18 =>
    simp only [ComponentSchema.returnedExpr]
    exact .unknown

theorem Alike.returnedValue (hxy : c.scope x y) (value : Option Expr) :
    SameReturned c (returnedValue index₁ x value) (returnedValue index₂ y value) := by
  cases value with
  | none => exact .nullish
  | some value => exact halike.returnedExpr hcast hxy value

theorem Alike.returnedBody (hxy : c.scope x y) (body : Body) :
    returnedBody index₁ x body = returnedBody index₂ y body := by
  cases body with
  | expression value => exact (halike.returnedExpr hcast hxy value).symbol? halike hxy
  | block statements =>
    refine SameReturned.symbol? halike hxy ?_
    have hfold : ∀ (values : List (Option Expr)) {r r' : Returned}, SameReturned c r r' →
        SameReturned c
          (values.foldl (fun known value =>
            Returned.combine known (ComponentSchema.returnedValue index₁ x value)) r)
          (values.foldl (fun known value =>
            Returned.combine known (ComponentSchema.returnedValue index₂ y value)) r') := by
      intro values
      induction values with
      | nil => exact id
      | cons value rest ih => exact fun h => ih (h.combine halike (halike.returnedValue hcast hxy value))
    exact hfold _ .nullish

theorem Alike.returnedSymbol {f g : FunctionId} (hfg : c.function f g) :
    returnedSymbol index₁ f = returnedSymbol index₂ g := by
  unfold ComponentSchema.returnedSymbol
  rcases rel_cases (halike.functions hfg) with ⟨hx, hy⟩ | ⟨site, site', hx, hy, hsite⟩
  · rw [hx, hy]
  · obtain ⟨scope, body, wrapsResult⟩ := site
    obtain ⟨scope', body', wrapsResult'⟩ := site'
    obtain ⟨hscope, rfl, rfl⟩ := hsite
    rw [hx, hy]
    simp only
    split
    · rfl
    · cases body with
      | none => rfl
      | some body => exact halike.returnedBody hcast hscope body

/-- Counterparts return the same. -/
theorem Alike.returnSymbol {signature signature' : FunctionLike}
    (h : c.SameSignature signature signature') :
    signature.returnSymbol index₁ = signature'.returnSymbol index₂ := by
  obtain ⟨hfunction, -, hreturn⟩ := h
  cases hreturn with
  | none => exact halike.returnedSymbol hcast (hfunction rfl)
  | some hnode =>
    obtain ⟨hid, -⟩ := hnode
    simp only [FunctionLike.returnSymbol]
    rcases rel_cases (halike.meaning (.site hid)) with ⟨hx, hy⟩ | ⟨v, v', hx, hy, hv⟩
    · rw [hx, hy]
    · rw [hx, hy, Option.bind_some, Option.bind_some, hv.symbol]

end

/-! ## Candidates -/

section

variable {signature signature' : FunctionLike} {declaration declaration' : Declaration}

theorem Alike.candidate? (halike : c.Alike index₁ index₂)
    (hcast : c.SameOrigin index₁.castOrigin index₂.castOrigin)
    (h : c.SameView declaration declaration') :
    Option.Rel c.SameCandidate (declaration.candidate? index₁) (declaration'.candidate? index₂) := by
  unfold Declaration.candidate?
  rcases rel_cases h.signature? with ⟨hx, hy⟩ | ⟨signature, signature', hx, hy, hsignature⟩
  · rw [hx, hy]
    exact .none
  · rw [hx, hy]
    simp only [halike.returnSymbol hcast hsignature, hsignature.annotatedJsxElement]
    split
    · exact .some ⟨h.publicName, hsignature.propsNode?⟩
    · exact .none

theorem Alike.candidatesIn (halike : c.Alike index₁ index₂)
    (hcast : c.SameOrigin index₁.castOrigin index₂.castOrigin) {views views' : List Declaration}
    (h : c.SameViews views views') :
    List.Forall₂ c.SameCandidate (candidatesIn index₁ views) (candidatesIn index₂ views') := by
  induction views generalizing views' with
  | nil =>
    cases h
    exact .nil
  | cons first rest ih =>
    cases h with
    | cons hfirst hrest =>
      rw [ComponentSchema.candidatesIn, ComponentSchema.candidatesIn]
      rcases rel_cases (halike.candidate? hcast hfirst) with ⟨hx, hy⟩ | ⟨candidate, candidate', hx, hy, hr⟩
      · rw [List.filterMap_cons_none hx, List.filterMap_cons_none hy]
        exact ih hrest
      · rw [List.filterMap_cons_some hx, List.filterMap_cons_some hy]
        exact .cons hr (ih hrest)

end

/-! ## Schemas -/

section

variable {α β γ : Type} {R : α → β → Prop} {xs : List α} {ys : List β}

theorem map_eq_of_forall₂ {f : α → γ} {g : β → γ} (h : List.Forall₂ R xs ys)
    (hfg : ∀ x y, R x y → f x = g y) : xs.map f = ys.map g := by
  induction h with
  | nil => rfl
  | cons hxy _ ih => rw [List.map_cons, List.map_cons, hfg _ _ hxy, ih]

theorem flatMap_eq_of_forall₂ {f : α → List γ} {g : β → List γ} (h : List.Forall₂ R xs ys)
    (hfg : ∀ x y, R x y → f x = g y) : xs.flatMap f = ys.flatMap g := by
  rw [List.flatMap_def, List.flatMap_def, map_eq_of_forall₂ h hfg]

end

section

variable {o o' : OutlineMember} {v v' : Outline}

theorem SameOutline.schemaName (h : c.SameOutline v v') : v.schemaName = v'.schemaName := by
  rw [Outline.schemaName, Outline.schemaName, h.aliasName, h.symbol]

variable (halike : c.Alike index₁ index₂)
include halike

theorem Alike.memberType? (h : c.SameMember o o') :
    Option.Rel c.SameOutline (o.type? index₁) (o'.type? index₂) :=
  halike.meaning (.member h.owner h.data)

theorem Alike.property (h : c.SameMember o o') : o.property index₁ = o'.property index₂ := by
  rw [OutlineMember.property, OutlineMember.property, h.data.name, h.data.optional]
  rcases rel_cases (halike.memberType? h) with ⟨hx, hy⟩ | ⟨v, v', hx, hy, hv⟩
  · rw [hx, hy]
  · rw [hx, hy]
    simp only [Option.bind_some, hv.intrinsic, hv.aliasName]

theorem Alike.nested? (h : c.SameMember o o') :
    Option.Rel c.SameOutline (o.nested? index₁) (o'.nested? index₂) := by
  rw [OutlineMember.nested?, OutlineMember.nested?]
  rcases rel_cases (halike.memberType? h) with ⟨hx, hy⟩ | ⟨v, v', hx, hy, hv⟩
  · rw [hx, hy]
    exact .none
  · rw [hx, hy, Option.filter_some, Option.filter_some, hv.aliasName]
    split
    · exact .some hv
    · exact .none

theorem Alike.schema (h : c.SameOutline v v') : v.schema index₁ = v'.schema index₂ := by
  rw [Outline.schema, Outline.schema, h.schemaName,
    map_eq_of_forall₂ h.members fun _ _ hm => halike.property hm]

theorem Alike.nested (h : c.SameOutline v v') :
    List.Forall₂ c.SameOutline (v.nested index₁) (v'.nested index₂) :=
  List.rel_filterMap (fun _ _ hm => halike.nested? hm) h.members

theorem Alike.expansion (depth : Nat) {path path' : List TypeOrigin}
    (hpath : List.Forall₂ c.SameOrigin path path') (h : c.SameOutline v v') :
    v.expansion index₁ depth path = v'.expansion index₂ depth path' := by
  induction depth generalizing path path' v v' with
  | zero => rfl
  | succ depth ih =>
    have hmem : v.origin ∈ path ↔ v'.origin ∈ path' := by
      induction hpath with
      | nil => simp
      | cons hhead _ ih => simp only [List.mem_cons, h.origin.unique halike hhead, ih]
    rw [Outline.expansion, Outline.expansion]
    by_cases hv : v.origin ∈ path
    · rw [if_pos hv, if_pos (hmem.1 hv)]
    · rw [if_neg hv, if_neg fun hv' => hv (hmem.2 hv'), halike.schema h]
      rw [flatMap_eq_of_forall₂ (halike.nested h) fun _ _ hu => ih (.cons h.origin hpath) hu]

/-- The same schemas are needed. -/
theorem Alike.schemas (h : c.SameOutline v v') : v.schemas index₁ = v'.schemas index₂ := by
  rw [Outline.schemas_eq (Nat.le_add_right _ (index₂.decls.countP Program.isAlias)),
    Outline.schemas_eq (Nat.le_add_left _ (index₁.decls.countP Program.isAlias)), halike.schema h]
  rw [flatMap_eq_of_forall₂ (halike.nested h) fun _ _ hu =>
    halike.expansion _ (.cons h.origin .nil) hu]

end

/-! ## Contributions -/

section

variable {candidate candidate' : Candidate} (halike : c.Alike index₁ index₂)
include halike

theorem Alike.propsType? (h : c.SameCandidate candidate candidate') :
    Option.Rel c.SameOutline (candidate.propsType? index₁) (candidate'.propsType? index₂) := by
  obtain ⟨name, props⟩ := candidate
  obtain ⟨name', props'⟩ := candidate'
  obtain ⟨-, hprops⟩ := h
  cases hprops with
  | none => exact .none
  | some hnode =>
    obtain ⟨hid, -⟩ := hnode
    exact halike.meaning (.site hid)

theorem Alike.component (h : c.SameCandidate candidate candidate') :
    candidate.component index₁ = candidate'.component index₂ := by
  rw [Candidate.component, Candidate.component, h.name]
  rcases rel_cases (halike.propsType? h) with ⟨hx, hy⟩ | ⟨v, v', hx, hy, hv⟩
  · rw [hx, hy]
  · rw [hx, hy, Option.map_some, Option.map_some, hv.schemaName]

theorem Alike.candidateSchemas (h : c.SameCandidate candidate candidate') :
    candidate.schemas index₁ = candidate'.schemas index₂ := by
  rcases rel_cases (halike.propsType? h) with ⟨hx, hy⟩ | ⟨v, v', hx, hy, hv⟩
  · simp only [Candidate.schemas, hx, hy, Option.toList_none, List.flatMap_nil]
  · simp only [Candidate.schemas, hx, hy, Option.toList_some, List.flatMap_singleton,
      halike.schemas hv]

/-- Two views of the same file contribute the same. -/
theorem Alike.contributions (hcast : c.SameOrigin index₁.castOrigin index₂.castOrigin)
    {file file' : SourceFile} (h : c.SameViews file.declarations file'.declarations) :
    (file.candidates index₁).map (·.component index₁) =
        (file'.candidates index₂).map (·.component index₂) ∧
      (file.candidates index₁).flatMap (·.schemas index₁) =
        (file'.candidates index₂).flatMap (·.schemas index₂) := by
  have hcandidates := halike.candidatesIn hcast h.flatMap_visited
  exact ⟨map_eq_of_forall₂ hcandidates fun _ _ hc => halike.component hc,
    flatMap_eq_of_forall₂ hcandidates fun _ _ hc => halike.candidateSchemas hc⟩

end

end Counterparts

end ComponentSchema
