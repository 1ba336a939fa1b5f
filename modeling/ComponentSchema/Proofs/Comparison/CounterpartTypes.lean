import ComponentSchema.Proofs.Checker.MadeTypes
import ComponentSchema.Proofs.Comparison.Counterparts

/-!
# What counterparts denote

Counterparts denote the same in two indices that are alike: their outlines differ in ids only. No
resolution is looked at for this; an outline is given by the index alone.

Results.
* `Counterparts.SameOrigin.unique`: no origin is the counterpart of two.
* `Counterparts.Alike.outlineOf`: by induction on type expressions, given as much of declarations.
* `Counterparts.Alike.meaning`: for origins.
-/
namespace ComponentSchema

open Syntax Relation

/-- Once it suffices, the bound on the nesting of declarations makes no difference. -/
theorem unfoldDecl_depth {index : Index} {depth depth' : Nat} {opened : List DeclId} {d : DeclId}
    (ho : Opened index opened d) (hdepth : index.decls.size < depth + opened.length)
    (hdepth' : index.decls.size < depth' + opened.length) :
    unfoldDecl index depth opened d = unfoldDecl index depth' opened d := by
  induction depth generalizing opened depth' d with
  | zero =>
    have := ho.length_le
    omega
  | succ depth ih =>
    rcases depth' with _ | depth'
    · have := ho.length_le
      omega
    rw [unfoldDecl, unfoldDecl]
    split
    · rfl
    · rename_i hd
      split
      · rfl
      · rename_i decl hdecl
        refine declOutline_congr hdecl fun e hr => ih (ho.cons hd hdecl hr) ?_ ?_
        · rw [List.length_cons]
          omega
        · rw [List.length_cons]
          omega

namespace Counterparts

variable (c : Counterparts)

/-- Two members of the same. -/
structure SameData (first second : MemberData) : Prop where
  name : first.name = second.name
  optional : first.optional = second.optional
  scope : c.scope first.scope second.scope
  type : first.type = second.type

/-- Two origins that are counterparts. -/
inductive SameOrigin : TypeOrigin → TypeOrigin → Prop where
  | keyword {keyword : KeywordType} : SameOrigin (.keyword keyword) (.keyword keyword)
  | jsxElement : SameOrigin .jsxElement .jsxElement
  | declared {d e : DeclId} (h : c.decl d e) : SameOrigin (.declared d) (.declared e)
  | site {i j : NodeId} (h : c.node i j) : SameOrigin (.site i) (.site j)
  | member {owner owner' : TypeOrigin} {data data' : MemberData} (howner : SameOrigin owner owner')
    (hdata : c.SameData data data') : SameOrigin (.member owner data) (.member owner' data')

/-- Two members, and where they come from. -/
structure SameMember (first second : OutlineMember) : Prop where
  owner : c.SameOrigin first.owner second.owner
  data : c.SameData first.data second.data

/-- Two outlines that differ in ids only. -/
structure SameOutline (first second : Outline) : Prop where
  origin : c.SameOrigin first.origin second.origin
  symbol : first.symbol = second.symbol
  aliasName : first.aliasName = second.aliasName
  intrinsic : first.intrinsic = second.intrinsic
  members : List.Forall₂ c.SameMember first.members second.members

variable {c} {index₁ index₂ : Index} {own own' : TypeOrigin} {x y : ScopeId}

/-! ## Uniqueness -/

section

variable (halike : c.Alike index₁ index₂)
include halike

theorem SameData.unique {data data' other other' : MemberData} (h : c.SameData data data')
    (h' : c.SameData other other') : data = other ↔ data' = other' := by
  obtain ⟨name, optional, scope, type⟩ := data
  obtain ⟨name', optional', scope', type'⟩ := data'
  obtain ⟨rfl, rfl, hscope, rfl⟩ := h
  obtain ⟨name, optional, scope, type⟩ := other
  obtain ⟨name', optional', scope', type'⟩ := other'
  obtain ⟨rfl, rfl, hscope', rfl⟩ := h'
  simp [halike.scopeUnique hscope hscope']

theorem SameOrigin.unique {o o' p p' : TypeOrigin} (h : c.SameOrigin o o') (h' : c.SameOrigin p p') :
    o = p ↔ o' = p' := by
  induction h generalizing p p' with
  | keyword => cases h' <;> simp
  | jsxElement => cases h' <;> simp
  | declared hde =>
    cases h' with
    | declared hde' => simp [halike.declUnique hde hde']
    | keyword | jsxElement | site | member => simp
  | site hij =>
    cases h' with
    | site hij' => simp [halike.nodeUnique hij hij']
    | keyword | jsxElement | declared | member => simp
  | member _ hdata ih =>
    cases h' with
    | member howner' hdata' => simp [ih howner', hdata.unique halike hdata']
    | keyword | jsxElement | declared | site => simp

end

/-! ## Members -/

theorem data?_alike (hxy : c.scope x y) (member : TypeMember) :
    Option.Rel c.SameData (member.data? x) (member.data? y) := by
  have hname : ∀ (name : Option String) (make : ScopeId → String → MemberData),
      (∀ name, c.SameData (make x name) (make y name)) →
        Option.Rel c.SameData (name.map (make x)) (name.map (make y)) := by
    intro name make hmake
    cases name with
    | none => exact .none
    | some name => exact .some (hmake name)
  cases member with
  | property key optional type =>
    exact hname _ (fun scope name => ⟨name, optional, scope, .ofWritten type⟩)
      fun _ => ⟨rfl, rfl, hxy, rfl⟩
  | method key optional =>
    exact hname _ (fun scope name => ⟨name, optional, scope, .method⟩) fun _ => ⟨rfl, rfl, hxy, rfl⟩
  | getter key type =>
    exact hname _ (fun scope name => ⟨name, false, scope, .ofWritten type⟩)
      fun _ => ⟨rfl, rfl, hxy, rfl⟩
  | other => exact .none

theorem declaredMembers_alike (hxy : c.scope x y) (members : List TypeMember) :
    List.Forall₂ c.SameData (declaredMembers x members) (declaredMembers y members) := by
  refine forall₂_firstOfEachName (fun _ _ h => h.name) ?_ []
  refine List.rel_filterMap (R := Eq) ?_ (List.forall₂_refl members)
  rintro member _ rfl
  exact data?_alike hxy member

theorem SameOutline.plain (hown : c.SameOrigin own own') (symbol : Option TypeSymbol)
    (aliasName : Option String) :
    c.SameOutline (Outline.plain own symbol aliasName) (Outline.plain own' symbol aliasName) :=
  ⟨hown, rfl, rfl, rfl, .nil⟩

theorem SameOutline.object (hown : c.SameOrigin own own') (hxy : c.scope x y) (symbol : TypeSymbol)
    (aliasName : Option String) (members : List TypeMember) :
    c.SameOutline (Outline.object own symbol aliasName x members)
      (Outline.object own' symbol aliasName y members) := by
  refine ⟨hown, rfl, rfl, rfl, ?_⟩
  show List.Forall₂ _ (List.map _ _) (List.map _ _)
  rw [List.forall₂_map_left_iff, List.forall₂_map_right_iff]
  exact (declaredMembers_alike hxy members).imp fun _ _ h => ⟨hown, h⟩

theorem SameOutline.join (hown : c.SameOrigin own own') (aliasName : Option String)
    {parts parts' : List Outline} (h : List.Forall₂ c.SameOutline parts parts') :
    c.SameOutline (Outline.join own aliasName parts) (Outline.join own' aliasName parts') :=
  ⟨hown, rfl, rfl, rfl, forall₂_firstOfEachName (fun _ _ h => h.data.name)
    (List.rel_flatMap h fun _ _ h => h.members) []⟩

/-! ## Type expressions -/

section

variable {declared₁ declared₂ : DeclId → Option Outline}

/-- What two functions say of counterparts is the same. -/
def SameDeclared (c : Counterparts) (declared₁ declared₂ : DeclId → Option Outline) : Prop :=
  ∀ {d e}, c.decl d e → Option.Rel c.SameOutline (declared₁ d) (declared₂ e)

theorem Alike.outlineOfName (halike : c.Alike index₁ index₂)
    (hdeclared : c.SameDeclared declared₁ declared₂) (hxy : c.scope x y) (segments : List String) :
    Option.Rel c.SameOutline (outlineOfName index₁ declared₁ x segments)
      (outlineOfName index₂ declared₂ y segments) := by
  unfold ComponentSchema.outlineOfName
  rcases rel_cases (halike.lookup hxy segments) with ⟨hx, hy⟩ | ⟨d, e, hx, hy, hde⟩
  · simp only [hx, hy]
    split
    · exact .some (.plain .jsxElement _ _)
    · exact .none
  · rw [hx, hy]
    exact hdeclared hde

theorem Alike.outlineOf (halike : c.Alike index₁ index₂)
    (hdeclared : c.SameDeclared declared₁ declared₂) (hxy : c.scope x y) (hown : c.SameOrigin own own')
    (aliasName : Option String) (type : TypeExpr) :
    Option.Rel c.SameOutline (outlineOf index₁ declared₁ own x aliasName type)
      (outlineOf index₂ declared₂ own' y aliasName type) := by
  induction type using TypeExpr.resolutionRec generalizing aliasName with
  | keyword keyword =>
    rw [ComponentSchema.outlineOf, ComponentSchema.outlineOf]
    exact .some ⟨.keyword, rfl, rfl, rfl, .nil⟩
  | parenthesized inner ih =>
    rw [ComponentSchema.outlineOf, ComponentSchema.outlineOf]
    exact ih aliasName
  | reference name =>
    rw [ComponentSchema.outlineOf, ComponentSchema.outlineOf]
    exact halike.outlineOfName hdeclared hxy name.segments
  | literal members =>
    rw [ComponentSchema.outlineOf, ComponentSchema.outlineOf]
    exact .some (.object hown hxy _ aliasName members)
  | single parts part hsingle ih =>
    rw [outlineOf_single hsingle, outlineOf_single hsingle]
    exact ih none
  | several parts hseveral =>
    rw [outlineOf_several hseveral, outlineOf_several hseveral]
    exact .some (.plain hown _ aliasName)
  | intersection parts ih =>
    rw [ComponentSchema.outlineOf, ComponentSchema.outlineOf, outlinesOf_eq, outlinesOf_eq]
    have hsame : List.Forall₂ (fun part part' => part = part' ∧ part ∈ parts) parts parts :=
      List.forall₂_same.2 fun _ hpart => ⟨rfl, hpart⟩
    refine .some (.join hown aliasName (List.rel_filterMap ?_ hsame))
    rintro part _ ⟨rfl, hpart⟩
    exact ih part hpart none
  | function | constructor | other =>
    rw [ComponentSchema.outlineOf, ComponentSchema.outlineOf]
    exact .some (.plain hown _ _)

/-! ## Declarations and origins -/

theorem Alike.declOutline (halike : c.Alike index₁ index₂)
    (hdeclared : c.SameDeclared declared₁ declared₂) {d e : DeclId} (hde : c.decl d e)
    {decl decl' : TypeDecl} (hdecl : c.SameDecl decl decl') :
    Option.Rel c.SameOutline (declOutline index₁ declared₁ d decl)
      (declOutline index₂ declared₂ e decl') := by
  obtain ⟨name, scope, kind⟩ := decl
  obtain ⟨name', scope', kind'⟩ := decl'
  obtain ⟨rfl, hscope, rfl⟩ := hdecl
  have hname : (index₁.scope scope).name = (index₂.scope scope').name := (halike.scopes hscope).name
  cases kind with
  | interface bodies =>
    simp only [ComponentSchema.declOutline, hname]
    exact .some (.object (.declared hde) hscope _ none bodies.flatten)
  | typeAlias type => exact halike.outlineOf hdeclared hscope (.declared hde) (some name) type
  | nominal =>
    simp only [ComponentSchema.declOutline, hname]
    exact .some (.plain (.declared hde) _ none)

theorem Alike.unfoldDecl (halike : c.Alike index₁ index₂) (depth : Nat) {opened opened' : List DeclId}
    (hopened : List.Forall₂ c.decl opened opened') {d e : DeclId} (hde : c.decl d e) :
    Option.Rel c.SameOutline (unfoldDecl index₁ depth opened d)
      (unfoldDecl index₂ depth opened' e) := by
  induction depth generalizing opened opened' d e with
  | zero => exact .none
  | succ depth ih =>
    have hmem : d ∈ opened ↔ e ∈ opened' := by
      induction hopened with
      | nil => simp
      | cons hhead _ ih => simp only [List.mem_cons, halike.declUnique hde hhead, ih]
    rw [ComponentSchema.unfoldDecl, ComponentSchema.unfoldDecl]
    by_cases hd : d ∈ opened
    · rw [if_pos hd, if_pos (hmem.1 hd)]
      exact .none
    · rw [if_neg hd, if_neg fun he => hd (hmem.2 he)]
      rcases rel_cases (halike.decls hde) with ⟨hx, hy⟩ | ⟨decl, decl', hx, hy, hdecl⟩
      · rw [hx, hy]
        exact .none
      · rw [hx, hy]
        exact halike.declOutline (fun h => ih (.cons hde hopened) h) hde hdecl

end

theorem Alike.declMeaning (halike : c.Alike index₁ index₂) :
    c.SameDeclared (declMeaning index₁) (declMeaning index₂) := by
  intro d e hde
  have hsame := halike.unfoldDecl (index₁.decls.size + index₂.decls.size + 1) .nil hde
  rwa [unfoldDecl_depth (.nil index₁ d) (by rw [List.length_nil]; omega)
      (Nat.lt_succ_self index₁.decls.size),
    unfoldDecl_depth (.nil index₂ e) (by rw [List.length_nil]; omega)
      (Nat.lt_succ_self index₂.decls.size)] at hsame

/-- Counterparts denote the same. -/
theorem Alike.meaning (halike : c.Alike index₁ index₂) {o o' : TypeOrigin} (h : c.SameOrigin o o') :
    Option.Rel c.SameOutline (meaning index₁ o) (meaning index₂ o') := by
  cases h with
  | keyword => exact .some ⟨.keyword, rfl, rfl, rfl, .nil⟩
  | jsxElement => exact .some (.plain .jsxElement _ _)
  | declared hde => exact halike.declMeaning hde
  | @site i j hij =>
    rcases rel_cases (halike.sites hij) with ⟨hx, hy⟩ | ⟨site, site', hx, hy, hsite⟩
    · simp only [ComponentSchema.meaning, hx, hy]
      exact .none
    · obtain ⟨scope, type⟩ := site
      obtain ⟨scope', type'⟩ := site'
      obtain ⟨hscope, rfl⟩ := hsite
      simp only [ComponentSchema.meaning, hx, hy]
      exact halike.outlineOf halike.declMeaning hscope (.site hij) none type
  | @member owner owner' data data' howner hdata =>
    have hown : c.SameOrigin (.member owner data) (.member owner' data') := .member howner hdata
    obtain ⟨name, optional, scope, type⟩ := data
    obtain ⟨name', optional', scope', type'⟩ := data'
    obtain ⟨rfl, rfl, hscope, rfl⟩ := hdata
    cases type with
    | written type => exact halike.outlineOf halike.declMeaning hscope hown none type
    | implicitAny => exact .some ⟨.keyword, rfl, rfl, rfl, .nil⟩
    | method => exact .some (.plain hown _ _)

end Counterparts

end ComponentSchema
