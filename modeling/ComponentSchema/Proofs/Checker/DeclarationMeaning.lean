import ComponentSchema.Proofs.Checker.TypeOutlines
import Mathlib.Data.List.Nodup
import Mathlib.Data.List.Perm.Subperm

/-!
# What a declaration denotes

A declaration denotes what its right-hand side does, and nothing while it is open: while what it
denotes is being worked out.

Results.
* `unfoldDecl_eq_none`: a declaration on a circle of names denotes nothing.
* `unfoldDecl_congr`, `declOutline_eq_meaning`: what an untangled declaration denotes is the same for
  all sets of open declarations that lead to it.
* `meaning_nodup`: a type has one member of each name.
* `outlineOf_involves`: the annotations of the members of a type are involved in its annotation.
-/
namespace ComponentSchema

open Syntax Relation

/-- What a declaration denotes; `declared` says what others do. -/
def declOutline (index : Index) (declared : DeclId → Option Outline) (id : DeclId)
    (decl : TypeDecl) : Option Outline :=
  let symbol : TypeSymbol := ⟨decl.name, (index.scope decl.scope).name⟩
  match decl.kind with
  | .interface bodies =>
    some (Outline.object (.declared id) symbol none decl.scope bodies.flatten)
  | .typeAlias type => outlineOf index declared (.declared id) decl.scope (some decl.name) type
  | .nominal => some (Outline.plain (.declared id) (some symbol) none)

/-- What a declaration denotes while others are open. The first argument bounds the nesting. -/
def unfoldDecl (index : Index) : Nat → List DeclId → DeclId → Option Outline
  | 0, _, _ => none
  | depth + 1, opened, d =>
    if d ∈ opened then none
    else
      match index.decls[d.index]? with
      | none => none
      | some decl => declOutline index (unfoldDecl index depth (d :: opened)) d decl

/-- What a declaration denotes. -/
def declMeaning (index : Index) (d : DeclId) : Option Outline :=
  unfoldDecl index (index.decls.size + 1) [] d

/-- What a declaration denotes, unless it is open. -/
def meaningUnder (index : Index) (opened : List DeclId) (d : DeclId) : Option Outline :=
  if d ∈ opened then none else declMeaning index d

/-- The declarations that are open when `d` is reached: different ones, each on the way to `d`. -/
structure Opened (index : Index) (opened : List DeclId) (d : DeclId) : Prop where
  nodup : opened.Nodup
  valid : ∀ o ∈ opened, o.index < index.decls.size
  leads : ∀ o ∈ opened, ReflTransGen index.Refers o d

section

variable {index : Index} {declared declared' : DeclId → Option Outline} {d e : DeclId}
variable {decl : TypeDecl} {opened opened' : List DeclId}

/-- Different items are no more than there are places for them. -/
theorem length_le_of_places {α : Type} {place : α → Nat} (hinj : Function.Injective place)
    {items : List α} {size : Nat} (hnodup : items.Nodup) (hplaces : ∀ item ∈ items, place item < size) :
    items.length ≤ size := by
  have hsub : items.map place ⊆ List.range size := by
    intro i hi
    obtain ⟨item, hitem, rfl⟩ := List.mem_map.1 hi
    exact List.mem_range.2 (hplaces item hitem)
  have hlength := ((hnodup.map hinj).subperm hsub).length_le
  rwa [List.length_map, List.length_range] at hlength

/-- There are no more different declarations than the index has. -/
theorem length_le_decls (hnodup : opened.Nodup) (hvalid : ∀ o ∈ opened, o.index < index.decls.size) :
    opened.length ≤ index.decls.size :=
  length_le_of_places (fun ⟨_⟩ ⟨_⟩ heq => congrArg DeclId.mk heq) hnodup hvalid

theorem Opened.nil (index : Index) (d : DeclId) : Opened index [] d :=
  ⟨List.nodup_nil, (fun _ h => by cases h), (fun _ h => by cases h)⟩

theorem Opened.cons (h : Opened index opened d) (hd : d ∉ opened)
    (hdecl : index.decls[d.index]? = some decl) (hr : index.Refers d e) :
    Opened index (d :: opened) e := by
  obtain ⟨hvalid, -⟩ := Array.getElem?_eq_some_iff.1 hdecl
  refine ⟨List.nodup_cons.2 ⟨hd, h.nodup⟩, ?_, ?_⟩
  · intro o ho
    rcases List.mem_cons.1 ho with rfl | ho
    · exact hvalid
    · exact h.valid o ho
  · intro o ho
    rcases List.mem_cons.1 ho with rfl | ho
    · exact .single hr
    · exact (h.leads o ho).tail hr

theorem Opened.length_le (h : Opened index opened d) : opened.length ≤ index.decls.size :=
  length_le_decls h.nodup h.valid

theorem declOutline_congr (hdecl : index.decls[d.index]? = some decl)
    (h : ∀ e, index.Refers d e → declared e = declared' e) :
    declOutline index declared d decl = declOutline index declared' d decl := by
  obtain ⟨name, scope, kind⟩ := decl
  rcases kind with bodies | type
  · rfl
  · exact outlineOf_congr _ type fun e he => h e ⟨scope, type, ⟨name, hdecl⟩, he⟩
  · rfl

/-- On a circle of several declarations, each denotes what the next one does. -/
theorem declOutline_circle (h : index.Untangled d) (hdecl : index.decls[d.index]? = some decl)
    (hr : index.Refers d e) (hne : e ≠ d) (hback : ReflTransGen index.Refers e d) :
    declOutline index declared d decl = declared e := by
  obtain ⟨scope, type, ⟨name, halias⟩, hm⟩ := hr
  have hname := h.isName ⟨name, halias⟩ hm hne hback
  rw [halias] at hdecl
  obtain rfl := Option.some.inj hdecl
  exact outlineOf_isName hname hm _

/-- A declaration denotes nothing if it is on a circle with an open one, or with any other one. -/
theorem unfoldDecl_eq_none (depth : Nat) (h : index.Untangled d) {o : DeclId}
    (ho : o ∈ opened ∨ o ≠ d) (hto : ReflTransGen index.Refers d o)
    (hback : ReflTransGen index.Refers o d) : unfoldDecl index depth opened d = none := by
  induction depth generalizing opened d o with
  | zero => rfl
  | succ depth ih =>
    rw [unfoldDecl]
    split
    · rfl
    · rename_i hd
      have hne : d ≠ o := by
        rintro rfl
        exact ho.elim hd fun h => h rfl
      split
      · rfl
      · rename_i decl hdecl
        obtain ⟨e, hr, hed, he⟩ := Index.exists_refers_ne hto hne
        rw [declOutline_circle h hdecl hr hed (he.trans hback)]
        exact ih (h.of_refers hr) (.inl (List.mem_cons_self ..)) (he.trans hback) (.single hr)

/-- What a declaration denotes does not depend on which declarations are open on the way to it. -/
theorem unfoldDecl_congr {depth depth' : Nat} (h : index.Untangled d)
    (ho : Opened index opened d) (ho' : Opened index opened' d) (hd : d ∉ opened) (hd' : d ∉ opened')
    (hdepth : index.decls.size < depth + opened.length)
    (hdepth' : index.decls.size < depth' + opened'.length) :
    unfoldDecl index depth opened d = unfoldDecl index depth' opened' d := by
  induction depth generalizing opened opened' depth' d with
  | zero =>
    have := ho.length_le
    omega
  | succ depth ih =>
    rcases depth' with _ | depth'
    · have := ho'.length_le
      omega
    rw [unfoldDecl, unfoldDecl, if_neg hd, if_neg hd']
    split
    · rfl
    · rename_i decl hdecl
      refine declOutline_congr hdecl fun e hr => ?_
      by_cases hback : ReflTransGen index.Refers e d
      · rw [unfoldDecl_eq_none _ (h.of_refers hr) (.inl (List.mem_cons_self ..)) hback (.single hr),
          unfoldDecl_eq_none _ (h.of_refers hr) (.inl (List.mem_cons_self ..)) hback (.single hr)]
      · have hfresh : ∀ {opened}, Opened index opened d → e ∉ d :: opened := fun ho he =>
          hback ((List.mem_cons.1 he).elim (fun h => h ▸ .refl) (ho.leads e))
        refine ih (h.of_refers hr) (ho.cons hd hdecl hr) (ho'.cons hd' hdecl hr) (hfresh ho)
          (hfresh ho') ?_ ?_
        · rw [List.length_cons]
          omega
        · rw [List.length_cons]
          omega

/-- What a declaration denotes is what its right-hand side does while it is open, along with any
declarations that lead to it. -/
theorem declOutline_eq_meaning (h : index.Untangled d) (ho : Opened index opened d)
    (hdecl : index.decls[d.index]? = some decl) :
    declOutline index (meaningUnder index (d :: opened)) d decl = declMeaning index d := by
  rw [declMeaning, unfoldDecl, if_neg (by simp), hdecl]
  refine declOutline_congr hdecl fun e hr => ?_
  have he := h.of_refers hr
  rw [meaningUnder]
  by_cases hback : ReflTransGen index.Refers e d
  · rw [unfoldDecl_eq_none _ he (.inl (List.mem_cons_self ..)) hback (.single hr)]
    split
    · rfl
    · rename_i hnew
      exact unfoldDecl_eq_none _ he (.inr (Ne.symm (List.ne_of_not_mem_cons hnew))) hback (.single hr)
  · have hnew : e ∉ d :: opened := fun he =>
      hback ((List.mem_cons.1 he).elim (fun h => h ▸ .refl) (ho.leads e))
    have hself : e ∉ [d] := fun he => hback (List.mem_singleton.1 he ▸ .refl)
    rw [if_neg hnew, declMeaning]
    refine unfoldDecl_congr he (.nil index e) ((Opened.nil index d).cons (by simp) hdecl hr)
      (by simp) hself ?_ ?_
    · simp
    · simp

end

/-! ## Origins -/

/-- What the annotation of a member denotes. -/
def memberOutline (index : Index) (owner : TypeOrigin) (data : MemberData) : Option Outline :=
  let own : TypeOrigin := .member owner data
  match data.type with
  | .written type => outlineOf index (declMeaning index) own data.scope none type
  | .implicitAny => some (Outline.keyword .any)
  | .method => some (Outline.plain own (some TypeSymbol.anonymous) none)

/-- What an origin denotes. -/
def meaning (index : Index) : TypeOrigin → Option Outline
  | .keyword keyword => some (Outline.keyword keyword)
  | .jsxElement => some Outline.jsxElement
  | .declared d => declMeaning index d
  | .site node =>
    match index.typeSites[node.index]? with
    | none => none
    | some site => outlineOf index (declMeaning index) (.site node) site.scope none site.type
  | .member owner data => memberOutline index owner data

/-- All that the annotation at an origin mentions is untangled. -/
def TypeOrigin.Untangled (index : Index) : TypeOrigin → Prop
  | .keyword _ | .jsxElement => True
  | .declared d => index.Untangled d
  | .site node =>
    ∀ site, index.typeSites[node.index]? = some site → index.UntangledNames site.scope site.type.names
  | .member _ data => ∀ type, data.type = .written type → index.UntangledNames data.scope type.names

variable {index : Index}

theorem unfoldDecl_nodup (depth : Nat) (opened : List DeclId) (d : DeclId) :
    ∀ v ∈ unfoldDecl index depth opened d, v.names.Nodup := by
  induction depth generalizing opened d with
  | zero => simp [unfoldDecl]
  | succ depth ih =>
    intro v hv
    rw [unfoldDecl] at hv
    split at hv
    · cases hv
    · split at hv
      · cases hv
      · rename_i decl _
        obtain ⟨name, scope, kind⟩ := decl
        rcases kind with bodies | type
        · obtain rfl := Option.some.inj hv
          exact Outline.nodup_names_object ..
        · exact outlineOf_nodup (fun d => ih _ d) _ type v hv
        · obtain rfl := Option.some.inj hv
          exact List.nodup_nil

/-- A type has one member of each name. -/
theorem meaning_nodup (origin : TypeOrigin) : ∀ v ∈ meaning index origin, v.names.Nodup := by
  intro v hv
  have hd : ∀ d, ∀ v ∈ declMeaning index d, v.names.Nodup := fun d => unfoldDecl_nodup _ _ d
  cases origin with
  | keyword keyword =>
    obtain rfl := Option.some.inj hv
    exact List.nodup_nil
  | jsxElement =>
    obtain rfl := Option.some.inj hv
    exact List.nodup_nil
  | declared d => exact hd d v hv
  | site node =>
    simp only [meaning] at hv
    split at hv
    · cases hv
    · exact outlineOf_nodup hd none _ v hv
  | member owner data =>
    simp only [meaning, memberOutline] at hv
    split at hv
    · exact outlineOf_nodup hd none _ v hv
    · obtain rfl := Option.some.inj hv
      exact List.nodup_nil
    · obtain rfl := Option.some.inj hv
      exact List.nodup_nil

/-! ## Annotations inside -/

/-- The annotation of a member that a declaration has is involved in whatever mentions the
declaration. -/
theorem unfoldDecl_involves {depth : Nat} {opened : List DeclId} {d : DeclId} {site : TypeSite}
    (hm : index.Mentions site.scope site.type.names d) :
    ∀ v ∈ unfoldDecl index depth opened d, ∀ o ∈ v.members, ∀ type, o.data.type = .written type →
      ReflTransGen index.Involves site ⟨o.data.scope, type⟩ := by
  induction depth generalizing opened d site with
  | zero => simp [unfoldDecl]
  | succ depth ih =>
    intro v hv o ho inner hinner
    rw [unfoldDecl] at hv
    split at hv
    · cases hv
    · split at hv
      · cases hv
      · rename_i decl hdecl
        obtain ⟨name, scope, kind⟩ := decl
        rcases kind with bodies | type
        · obtain rfl := Option.some.inj hv
          obtain ⟨data, hdata, rfl⟩ := List.mem_map.1 ho
          exact .single (.interfaceMember hm hdecl hdata hinner)
        · have hright : index.Involves site ⟨scope, type⟩ := .rightSide hm ⟨name, hdecl⟩
          rcases outlineOf_takenFrom _ type v hv o ho with ⟨members, hl, hd⟩ | ⟨e, he, v', hv', ho'⟩
          · exact .head hright (.single (.literalMember hl hd hinner))
          · have he' : index.Mentions (TypeSite.mk scope type).scope
                (TypeSite.mk scope type).type.names e := he
            exact .head hright (ih he' v' hv' o ho' inner hinner)
        · obtain rfl := Option.some.inj hv
          cases ho

/-- The annotation of a member of what an annotation denotes is involved in it. -/
theorem outlineOf_involves {own : TypeOrigin} {aliasName : Option String} (site : TypeSite) :
    ∀ v ∈ outlineOf index (declMeaning index) own site.scope aliasName site.type, ∀ o ∈ v.members,
      ∀ type, o.data.type = .written type →
        ReflTransGen index.Involves site ⟨o.data.scope, type⟩ := by
  intro v hv o ho inner hinner
  rcases outlineOf_takenFrom _ site.type v hv o ho with ⟨members, hl, hd⟩ | ⟨d, hd, v', hv', ho'⟩
  · exact .single (.literalMember hl hd hinner)
  · exact unfoldDecl_involves hd v' hv' o ho' inner hinner

end ComponentSchema
