import ComponentSchema.Proofs.Checker.AliasLoops
import ComponentSchema.Proofs.Checker.DistinctTypes

/-!
# Types that are `Element` in `JSX`

A type is an element if its symbol is `Element` in a namespace `JSX`. Such types come from declarations
of that name, and there is the built-in one. A type expression is resolved to an element just if it is a
mere name that leads there, from alias to alias; this can be read off the index, and what else has been
resolved before makes no difference.

Results.
* `NamesElement.outline`, `NamesElement.untangled`: a name that leads to an element denotes it, and is
  not entangled.
* `resolveWith_candid`, `resolveDecl_candid`: by induction on type expressions and on the nesting of
  resolutions, nothing else is resolved to an element.
* `resolve_element`: what a type expression is resolved to.
-/
namespace ComponentSchema

open Syntax Relation Arena

variable {index : Index} {a a' : Arena} {scope : ScopeId} {type : TypeExpr} {d : DeclId} {t : TypeId}

/-! ## Names that lead to an element -/

namespace Index

/-- A declaration, no alias, of `Element` in a namespace `JSX`. -/
structure DeclaresElement (index : Index) (d : DeclId) (decl : TypeDecl) : Prop where
  found : index.decls[d.index]? = some decl
  notAlias : ∀ type, decl.kind ≠ .typeAlias type
  symbol : TypeSymbol.mk decl.name (index.scope decl.scope).name = TypeSymbol.jsxElement

theorem DeclaresElement.not_isAlias {decl : TypeDecl} (h : index.DeclaresElement d decl) :
    ¬ index.IsAlias d scope type := by
  rintro ⟨name, halias⟩
  rw [h.found] at halias
  exact h.notAlias type (congrArg (·.kind) (Option.some.inj halias))

theorem DeclaresElement.untangled {decl : TypeDecl} (h : index.DeclaresElement d decl) :
    index.Untangled d := by
  rintro e he ⟨scope, type, halias, -⟩
  rcases he.cases_head with rfl | ⟨f, ⟨scope, type, halias, -⟩, -⟩
  · exact h.not_isAlias halias
  · exact h.not_isAlias halias

/-- A type expression is a mere name that leads to an element, from alias to alias. -/
inductive NamesElement (index : Index) : ScopeId → TypeExpr → TypeOrigin → Prop
  | builtin {scope : ScopeId} {type : TypeExpr} (hname : type.isName = true)
    (hm : jsxElementSegments ∈ type.names) (hnone : index.lookup scope jsxElementSegments = none) :
    NamesElement index scope type .jsxElement
  | declared {scope : ScopeId} {type : TypeExpr} {d : DeclId} {decl : TypeDecl}
    (hname : type.isName = true) (hm : index.Mentions scope type.names d)
    (hdecl : index.DeclaresElement d decl) : NamesElement index scope type (.declared d)
  | onward {scope scope' : ScopeId} {type right : TypeExpr} {d : DeclId} {o : TypeOrigin}
    (hname : type.isName = true) (hm : index.Mentions scope type.names d)
    (halias : index.IsAlias d scope' right) (hright : NamesElement index scope' right o) :
    NamesElement index scope type o

/-- A declaration is of an element, or an alias of a name that leads to one. -/
def MakesElement (index : Index) (d : DeclId) (o : TypeOrigin) : Prop :=
  (∃ decl, index.DeclaresElement d decl ∧ o = .declared d) ∨
    ∃ scope type, index.IsAlias d scope type ∧ index.NamesElement scope type o

variable {o : TypeOrigin}

theorem MakesElement.named (h : index.MakesElement d o) (hname : type.isName = true)
    (hm : index.Mentions scope type.names d) : index.NamesElement scope type o := by
  rcases h with ⟨decl, hdecl, rfl⟩ | ⟨scope', right, halias, hright⟩
  · exact .declared hname hm hdecl
  · exact .onward hname hm halias hright

namespace NamesElement

theorem isName (h : index.NamesElement scope type o) : type.isName = true := by
  cases h <;> assumption

/-- Another way to write the same name. -/
theorem rewrite {type' : TypeExpr} (h : index.NamesElement scope type o) (hname : type'.isName = true)
    (hnames : type'.names = type.names) : index.NamesElement scope type' o := by
  cases h with
  | builtin _ hm hnone => exact .builtin hname (hnames ▸ hm) hnone
  | declared _ hm hdecl => exact .declared hname (hnames ▸ hm) hdecl
  | onward _ hm halias hright => exact .onward hname (hnames ▸ hm) halias hright

/-- On the way there is no alias of more than a name. -/
theorem untangled (h : index.NamesElement scope type o) : index.UntangledNames scope type.names := by
  induction h with
  | builtin hname hm hnone =>
    rintro d ⟨segments, hs, hd⟩
    obtain ⟨only, honly⟩ := names_of_isName _ hname
    rw [honly, List.mem_singleton] at hm hs
    rw [hs, ← hm, hnone] at hd
    cases hd
  | declared hname hm hdecl =>
    intro d hd
    obtain rfl := Mentions.unique hname hm hd
    exact hdecl.untangled
  | onward hname hm halias hright ih =>
    intro d hd
    obtain rfl := Mentions.unique hname hm hd
    rintro e he hentangled
    rcases he.cases_head with rfl | ⟨f, ⟨scope, type, halias', hmf⟩, hrest⟩
    · obtain ⟨scope, type, halias', hmore, -⟩ := hentangled
      obtain ⟨rfl, rfl⟩ := halias.unique halias'
      rw [hright.isName] at hmore
      cases hmore
    · obtain ⟨rfl, rfl⟩ := halias.unique halias'
      exact ih f hmf e hrest hentangled

end NamesElement

end Index

/-- The outline of an element that comes from `o`. -/
structure Outline.IsElement (v : Outline) (o : TypeOrigin) : Prop where
  origin : v.origin = o
  symbol : v.symbol = some TypeSymbol.jsxElement

open Index

theorem Index.DeclaresElement.meaning {decl : TypeDecl} (h : index.DeclaresElement d decl) :
    ∃ v, declMeaning index d = some v ∧ v.IsElement (.declared d) := by
  have hunfold : declMeaning index d =
      declOutline index (unfoldDecl index index.decls.size [d]) d decl := by
    rw [declMeaning, unfoldDecl, if_neg (by simp), h.found]
  have hsymbol := h.symbol
  rw [hunfold, declOutline]
  rcases hkind : decl.kind with bodies | type | _
  · exact ⟨_, rfl, rfl, congrArg some hsymbol⟩
  · exact absurd hkind (h.notAlias type)
  · exact ⟨_, rfl, rfl, congrArg some hsymbol⟩

/-- An alias of a name that denotes something denotes the same. -/
theorem declMeaning_alias {right : TypeExpr} {own : TypeOrigin} {v : Outline}
    (h : index.Untangled d) (halias : index.IsAlias d scope right) (hname : right.isName = true)
    (hright : outlineOf index (declMeaning index) own scope none right = some v) :
    declMeaning index d = some v := by
  obtain ⟨name, hdecl⟩ := halias
  obtain ⟨only, honly⟩ := names_of_isName right hname
  have honly : only ∈ right.names := honly ▸ List.mem_singleton_self only
  rw [outlineOf_of_isName none right hname only honly] at hright
  have hmeaning : declMeaning index d =
      outlineOfName index (meaningUnder index [d]) scope only := by
    rw [← declOutline_eq_meaning h (.nil index d) hdecl]
    exact outlineOf_of_isName (some name) right hname only honly
  by_cases hself : index.lookup scope only = some d
  · -- If it is one of itself, then it denotes what it does itself.
    rwa [outlineOfName, hself] at hright
  · rw [hmeaning, ← hright]
    refine outlineOfName_congr fun e he => ?_
    rw [meaningUnder, if_neg]
    rintro hmem
    obtain rfl := List.mem_singleton.1 hmem
    exact hself he

theorem Index.NamesElement.outline {o : TypeOrigin} (h : index.NamesElement scope type o)
    (own : TypeOrigin) (aliasName : Option String) :
    ∃ v, outlineOf index (declMeaning index) own scope aliasName type = some v ∧ v.IsElement o := by
  induction h generalizing own aliasName with
  | builtin hname hm hnone =>
    refine ⟨Outline.jsxElement, ?_, rfl, rfl⟩
    rw [outlineOf_of_isName aliasName _ hname _ hm, outlineOfName, hnone]
    rfl
  | declared hname hm hdecl =>
    rw [outlineOf_isName hname hm]
    exact hdecl.meaning
  | onward hname hm halias hright ih =>
    rw [outlineOf_isName hname hm]
    obtain ⟨v, hv, helement⟩ := ih own none
    refine ⟨v, declMeaning_alias ?_ halias hright.isName hv, helement⟩
    exact (NamesElement.onward hname hm halias hright).untangled _ hm

/-! ## Elements of an arena -/

/-- The type that an arena has for an element. -/
inductive Arena.GivesElement (index : Index) (a : Arena) : TypeOrigin → TypeId → Prop
  | builtin {t : TypeId} (h : a.jsxElement = some t) : GivesElement index a .jsxElement t
  | declared {d : DeclId} {decl : TypeDecl} {t : TypeId} (hdecl : index.DeclaresElement d decl)
    (h : a.declared.lookup d = some (.done (some t))) : GivesElement index a (.declared d) t

namespace Arena.GivesElement

variable {o o' : TypeOrigin} {t' : TypeId} {w : Naming}

theorem retains (h : a.GivesElement index o t) (hk : Retains a a') : a'.GivesElement index o t := by
  cases h with
  | builtin h => exact .builtin (hk.jsxElement h)
  | declared hdecl h => exact .declared hdecl (hk.declared h)

theorem unique (h : a.GivesElement index o t) (h' : a.GivesElement index o t') : t = t' := by
  cases h with
  | builtin h =>
    cases h' with
    | builtin h' => exact Option.some.inj (h.symm.trans h')
  | declared _ h =>
    cases h' with
    | declared _ h' => exact Option.some.inj (DeclState.done.inj (Option.some.inj (h.symm.trans h')))

theorem untangled (h : a.GivesElement index o t) : o.Untangled index := by
  cases h with
  | builtin => trivial
  | declared hdecl => exact hdecl.untangled

theorem fits (h : a.GivesElement index o t) (hf : Faithful index a w) :
    ∃ v, Fits a w t v ∧ v.IsElement o := by
  have hanswer : ∀ r, Recorded a w o r → ComponentSchema.Stands a w r (meaning index o) :=
    fun r hr => hf.answers hr h.untangled
  cases h with
  | builtin h =>
    have hstands := hanswer _ ⟨t, h, rfl⟩
    cases hstands with
    | some hfits => exact ⟨_, hfits, rfl, rfl⟩
  | declared hdecl h =>
    obtain ⟨v, hv, helement⟩ := hdecl.meaning
    have hstands := hanswer _ h
    rw [meaning, hv] at hstands
    cases hstands with
    | some hfits => exact ⟨v, hfits, helement⟩

theorem origin_eq (h : a.GivesElement index o t) (h' : a.GivesElement index o' t)
    (hf : Faithful index a w) : o = o' := by
  obtain ⟨v, hfits, helement⟩ := h.fits hf
  obtain ⟨v', hfits', helement'⟩ := h'.fits hf
  rw [← helement.origin, ← helement'.origin]
  exact Option.some.inj (hfits.origin.symm.trans hfits'.origin)

theorem symbol (h : a.GivesElement index o t) (hf : Faithful index a w) :
    (a.typeData t).symbol = some TypeSymbol.jsxElement := by
  obtain ⟨v, hfits, helement⟩ := h.fits hf
  obtain ⟨members, hdata, -⟩ := hfits.typeData
  rw [hdata]
  exact helement.symbol

end Arena.GivesElement

theorem Index.NamesElement.origin {o : TypeOrigin} (h : index.NamesElement scope type o) :
    o = .jsxElement ∨ ∃ d decl, index.DeclaresElement d decl ∧ o = .declared d := by
  induction h with
  | builtin => exact .inl rfl
  | declared _ _ hdecl => exact .inr ⟨_, _, hdecl, rfl⟩
  | onward _ _ _ _ ih => exact ih

/-- A type that comes from an element is the one that the arena has for it. -/
theorem Arena.givesElement_of_origin {w : Naming} {o : TypeOrigin} (htype : w.type t = some o)
    (ho : o = .jsxElement ∨ ∃ d decl, index.DeclaresElement d decl ∧ o = .declared d)
    (hf : Faithful index a w) : a.GivesElement index o t := by
  obtain ⟨r, hr⟩ := hf.typeMade htype
  -- The arena has a type for the element, and there is only one that comes from there.
  obtain ⟨t', ht'⟩ : ∃ t', a.GivesElement index o t' := by
    rcases ho with rfl | ⟨d, decl, hdecl, rfl⟩
    · obtain ⟨t', ht', -⟩ := hr
      exact ⟨t', .builtin ht'⟩
    · obtain ⟨v', hv', -⟩ := hdecl.meaning
      have hstands := hf.answers hr hdecl.untangled
      rw [meaning, hv'] at hstands
      cases hstands with
      | some _ => exact ⟨_, .declared hdecl hr⟩
  obtain ⟨v', hfits', hv'⟩ := ht'.fits hf
  have hsame : t = t' := hf.typeUnique htype (hv'.origin ▸ hfits'.origin)
  exact hsame ▸ ht'

/-! ## Nothing else is an element -/

/-- What holds of an arena at any time: the types of keywords are no elements, and if a declaration was
answered with an element, it leads to one. -/
structure Arena.Candid (index : Index) (a : Arena) : Prop where
  keyword : ∀ {keyword t}, a.intrinsics.lookup keyword = some t → (a.typeData t).symbol = none
  declared : ∀ {d t}, a.declared.lookup d = some (.done (some t)) →
    (a.typeData t).symbol = some TypeSymbol.jsxElement → ∃ o, index.MakesElement d o

theorem candid_empty (index : Index) : Arena.empty.Candid index :=
  ⟨fun h => by simp [Arena.empty] at h, fun h => by simp [Arena.empty] at h⟩

/-- An arena stays candid if what is new in it is. -/
theorem Arena.Candid.grow (h : a.Candid index) (hs : Sound index (fun _ => True) a)
    (hk : Retains a a')
    (hkeyword : ∀ {keyword t}, a'.intrinsics.lookup keyword = some t →
      a.intrinsics.lookup keyword = some t ∨ (a'.typeData t).symbol = none)
    (hdeclared : ∀ {d t}, a'.declared.lookup d = some (.done (some t)) →
      a.declared.lookup d = some (.done (some t)) ∨
        ((a'.typeData t).symbol = some TypeSymbol.jsxElement → ∃ o, index.MakesElement d o)) :
    a'.Candid index where
  keyword {keyword t} ht := by
    rcases hkeyword ht with hold | hnew
    · rw [hk.typeData (hs.intrinsics _ (mem_of_lookup hold))]
      exact h.keyword hold
    · exact hnew
  declared {d t} ht helement := by
    rcases hdeclared ht with hold | hnew
    · rw [hk.typeData ((hs.declared _ (mem_of_lookup hold)).2 _ rfl t rfl)] at helement
      exact h.declared hold helement
    · exact hnew helement

theorem Arena.Candid.quiet (h : a.Candid index) (hs : Sound index (fun _ => True) a)
    (hk : Retains a a') (hintrinsics : a'.intrinsics = a.intrinsics)
    (hdeclared : a'.declared = a.declared) : a'.Candid index :=
  h.grow hs hk (fun ht => .inl (hintrinsics ▸ ht)) fun ht => .inl (hdeclared ▸ ht)

theorem typeData_nextType (a : Arena) (data : TypeData) :
    (a.addType data).typeData a.nextType = data := by
  simp [Arena.typeData, addType, nextType]

/-- The question leaves an arena candid, and if it is answered with an element, then `Leads` holds. -/
def AnswersCandidly (index : Index) (a : Arena) (question : Resolve (Option TypeId)) (Leads : Prop) :
    Prop :=
  Sound index (fun _ => True) a → a.Candid index →
    (question.run a).2.Candid index ∧
      ∀ t, (question.run a).1 = some t →
        ((question.run a).2.typeData t).symbol = some TypeSymbol.jsxElement → Leads

theorem AnswersCandidly.imp {question : Resolve (Option TypeId)} {Leads Leads' : Prop}
    (h : AnswersCandidly index a question Leads) (himp : Leads → Leads') :
    AnswersCandidly index a question Leads' :=
  fun hs hcandid => (h hs hcandid).imp id fun hanswer t ht helement => himp (hanswer t ht helement)

namespace Resolve

variable {α : Type} {Leads : Prop}

theorem anonymous_ne_jsxElement : some TypeSymbol.anonymous ≠ some TypeSymbol.jsxElement := by
  decide

theorem candid_none : AnswersCandidly index a (pure none) Leads := fun _ h => ⟨h, nofun⟩

/-- A question that ends with making a type. -/
theorem candid_push (question : Resolve α) (data : α → TypeData)
    (hquestion : Sound index (fun _ => True) a → a.Candid index →
      Sound index (fun _ => True) (question.run a).2 ∧ (question.run a).2.Candid index)
    (hdata : ∀ answer, (data answer).symbol = some TypeSymbol.jsxElement → Leads) :
    AnswersCandidly index a (question >>= fun answer => some <$> push (data answer)) Leads := by
  intro hs h
  obtain ⟨hs', h'⟩ := hquestion hs h
  refine ⟨h'.quiet hs' (retains_addType _ (data (question.run a).1)) rfl rfl, fun t ht helement => ?_⟩
  obtain rfl : (question.run a).2.nextType = t := Option.some.inj ht
  exact hdata _ ((congrArg (·.symbol) (typeData_nextType _ _)).symm.trans helement)

theorem candid_pushPlain (data : TypeData)
    (hdata : data.symbol = some TypeSymbol.jsxElement → Leads) :
    AnswersCandidly index a (some <$> push data) Leads :=
  candid_push (pure ()) (fun _ => data) (fun hs h => ⟨hs, h⟩) fun _ => hdata

theorem members_candid (scope : ScopeId) (members : List TypeMember)
    (hs : Sound index (fun _ => True) a) (h : a.Candid index) :
    Sound index (fun _ => True) (((declaredMembers scope members).mapM pushMember).run a).2 ∧
      (((declaredMembers scope members).mapM pushMember).run a).2.Candid index := by
  have hruns : Resolved index (fun _ => True) a
      (((declaredMembers scope members).mapM pushMember).run a).2 :=
    (declaredMembers_runs trivial members).1
  have hsame := (pushMembers_sameStands (declaredMembers scope members) a).1
  exact ⟨hs.steps hruns.steps, h.quiet hs hruns.retains hsame.intrinsics hsame.declared⟩

theorem intrinsic_candid (keyword : KeywordType) :
    AnswersCandidly index a (some <$> intrinsic keyword) Leads := by
  intro hs h
  rcases hlook : a.intrinsics.lookup keyword with _ | found
  · have hstep : Step index (fun _ => True) a _ := .keyword keyword hlook
    have hk := hstep.retains
    have hnew := congrArg (·.symbol)
      (typeData_nextType a { TypeData.blank with intrinsic := some keyword })
    rw [StateT.run_map, intrinsic_new hlook]
    refine ⟨h.grow hs hk (fun {keyword' t} ht => ?_) fun ht => .inl ht, fun t ht helement => ?_⟩
    · rcases (lookup_cons_iff hlook).1 ht with ⟨-, rfl⟩ | hold
      · exact .inr hnew
      · exact .inl hold
    · obtain rfl : a.nextType = t := Option.some.inj ht
      exact nomatch hnew.symm.trans helement
  · rw [StateT.run_map, intrinsic_known hlook]
    refine ⟨h, fun t ht helement => ?_⟩
    obtain rfl : found = t := Option.some.inj ht
    exact nomatch (h.keyword hlook).symm.trans helement

theorem builtinJsxElement_candid (hleads : Leads) :
    AnswersCandidly index a (some <$> builtinJsxElement) Leads := by
  intro hs h
  refine ⟨?_, fun _ _ _ => hleads⟩
  rcases hlook : a.jsxElement with _ | found
  · rw [StateT.run_map, builtinJsxElement_new hlook]
    have hstep : Step index (fun _ => True) a _ := .jsxElement hlook
    exact h.quiet hs hstep.retains rfl rfl
  · rw [StateT.run_map, builtinJsxElement_known hlook]
    exact h

/-! ## Type expressions -/

section

variable {declared : DeclId → Resolve (Option TypeId)}

/-- If a declaration is answered with an element, it leads to one. -/
def DeclaresCandidly (index : Index) (declared : DeclId → Resolve (Option TypeId)) : Prop :=
  ∀ d a, AnswersCandidly index a (declared d) (∃ o, index.MakesElement d o)

theorem resolveName_candid (hd : DeclaresCandidly index declared) (hname : type.isName = true) {segments : List String}
    (hs : segments ∈ type.names) : AnswersCandidly index a (resolveName index declared scope segments)
      (∃ o, index.NamesElement scope type o) := by
  unfold resolveName
  rcases hlook : index.lookup scope segments with _ | d
  · simp only
    split
    · rename_i hsegments
      obtain rfl := eq_of_beq hsegments
      exact builtinJsxElement_candid ⟨_, .builtin hname hs hlook⟩
    · exact candid_none
  · intro hsound h
    obtain ⟨h', hanswer⟩ := hd d a hsound h
    refine ⟨h', fun t ht helement => ?_⟩
    obtain ⟨o, ho⟩ := hanswer t ht helement
    exact ⟨o, ho.named hname ⟨segments, hs, hlook⟩⟩

theorem resolveParts_candid (hr : Answers index (fun _ => True) declared) {parts : List TypeExpr}
    (hparts : ∀ part ∈ parts, ∀ a, ∃ Leads, AnswersCandidly index a
      (resolveWith index declared scope none part) Leads)
    (hs : Sound index (fun _ => True) a) (h : a.Candid index) :
    ((resolveParts index declared scope parts).run a).2.Candid index := by
  induction parts generalizing a with
  | nil =>
    rw [resolveParts]
    exact h
  | cons part rest ih =>
    obtain ⟨hpart, hrest⟩ := List.forall_mem_cons.1 hparts
    obtain ⟨Leads, hanswers⟩ := hpart a
    rw [resolveParts_cons_arena]
    refine ih hrest ?_ (hanswers hs h).1
    exact hs.steps (resolveWith_finished hr trivial none part hs).resolved.1.steps

theorem resolveWith_candid (hr : Answers index (fun _ => True) declared)
    (hd : DeclaresCandidly index declared) (aliasName : Option String) (type : TypeExpr) (a : Arena) :
    AnswersCandidly index a (resolveWith index declared scope aliasName type)
      (∃ o, index.NamesElement scope type o) := by
  induction type using TypeExpr.resolutionRec generalizing aliasName a with
  | keyword keyword =>
    rw [resolveWith]
    exact intrinsic_candid keyword
  | parenthesized inner ih =>
    rw [resolveWith]
    refine (ih aliasName a).imp ?_
    rintro ⟨o, ho⟩
    exact ⟨o, ho.rewrite (by rw [TypeExpr.isName, ho.isName]) (by rw [TypeExpr.names])⟩
  | reference name =>
    rw [resolveWith]
    exact resolveName_candid hd rfl (List.mem_singleton_self _)
  | literal members =>
    rw [resolveWith]
    refine candid_push _ (fun ids => ⟨some TypeSymbol.anonymous, aliasName, none, ids⟩) (fun hs h => ?_)
      fun _ h => absurd h anonymous_ne_jsxElement
    exact members_candid scope members hs h
  | single parts part hsingle ih =>
    rw [resolveWith_single hsingle]
    refine (ih none a).imp ?_
    rintro ⟨o, ho⟩
    exact ⟨o, ho.rewrite (by rw [TypeExpr.isName_single hsingle, ho.isName])
      (by rw [TypeExpr.names_single hsingle])⟩
  | several parts hseveral =>
    rw [resolveWith_several hseveral]
    exact candid_pushPlain _ fun h => absurd h (Option.some_ne_none _).symm
  | intersection parts ih =>
    rw [resolveWith]
    refine candid_push (resolveParts index declared scope parts >>= joinMembers)
      (fun members => ⟨none, aliasName, none, members⟩) (fun hs h => ?_)
      fun _ h => absurd h (Option.some_ne_none _).symm
    exact ⟨hs.steps (resolveParts_runs hr trivial parts hs).1.steps,
      resolveParts_candid hr (fun part hpart a => ⟨_, ih part hpart none a⟩) hs h⟩
  | function | constructor =>
    rw [resolveWith]
    exact candid_pushPlain _ fun h => absurd h anonymous_ne_jsxElement
  | other =>
    rw [resolveWith]
    exact candid_pushPlain _ fun h => absurd h (Option.some_ne_none _).symm

/-! ## Declarations -/

theorem declaredType_candid (hr : Answers index (fun _ => True) declared)
    (hd : DeclaresCandidly index declared) {decl : TypeDecl}
    (hdecl : index.decls[d.index]? = some decl) (a : Arena) :
    AnswersCandidly index a (declaredType index declared decl) (∃ o, index.MakesElement d o) := by
  have hown : (∀ type, decl.kind ≠ .typeAlias type) →
      some (TypeSymbol.mk decl.name (index.scope decl.scope).name) = some TypeSymbol.jsxElement →
        ∃ o, index.MakesElement d o :=
    fun hkind hsymbol => ⟨_, .inl ⟨decl, ⟨hdecl, hkind, Option.some.inj hsymbol⟩, rfl⟩⟩
  obtain ⟨name, scope, bodies | type⟩ := decl
  · exact candid_push _ (fun ids => ⟨some ⟨name, (index.scope scope).name⟩, none, none, ids⟩)
      (members_candid scope bodies.flatten) fun _ => hown nofun
  · intro hs h
    obtain ⟨h', hanswer⟩ := resolveWith_candid hr hd (some name) type a hs h
    refine ⟨h', fun t ht helement => ?_⟩
    obtain ⟨o, ho⟩ := hanswer t ht helement
    exact ⟨o, .inr ⟨scope, type, ⟨name, hdecl⟩, ho⟩⟩
  · exact candid_pushPlain _ (hown nofun)

theorem Finished.sound {S : ScopeId → Prop} {aliasName : Option String} {r : Option TypeId}
    (h : Finished index S aliasName a r a') (hs : Sound index S a) : Sound index S a' := by
  cases h with
  | known hresolved _ => exact hs.steps hresolved.steps
  | made data hresolved _ _ hholds => exact (hs.steps hresolved.steps).addType data hholds

theorem resolveDecl_candid (depth : Nat) : DeclaresCandidly index (resolveDecl index depth) := by
  induction depth with
  | zero => exact fun _ _ => candid_none
  | succ depth ih =>
    intro d a hs h
    rw [resolveDecl_succ]
    rcases hlook : a.declared.lookup d with _ | state
    · rcases hdecl : index.decls[d.index]? with _ | decl
      · rw [resolveStep_nowhere hlook hdecl]
        exact ⟨h, nofun⟩
      · rw [resolveStep_run hlook hdecl]
        have hbelow : Answers index (fun _ => True) (resolveDecl index depth) :=
          resolveDecl_runs index.scoped_true.decls depth
        have hmark : Step index (fun _ => True) a (a.mark d) :=
          .mark d (lt_size_of_getElem? hdecl) hlook
        obtain ⟨_, -, hfinished⟩ := declaredType_finished hbelow trivial hdecl (hs.step hmark)
        have hway := (hfinished.resolving d).2 ((mark_lookup ..).trans (if_pos rfl))
        have hmarked : (a.mark d).Candid index := by
          refine h.grow hs hmark.retains (fun ht => .inl ht) fun {e t} ht => .inl ?_
          rw [mark_lookup] at ht
          split at ht
          · cases ht
          · exact ht
        obtain ⟨h', hanswer⟩ := declaredType_candid hbelow ih hdecl _ (hs.step hmark) hmarked
        refine ⟨h'.grow (hfinished.sound (hs.step hmark)) (retains_declare _ hway)
          (fun ht => .inl ht) fun {e t} ht => ?_, hanswer⟩
        rw [declare_lookup] at ht
        split at ht
        · rename_i hed
          exact .inr (hed ▸ hanswer t (DeclState.done.inj (Option.some.inj ht)))
        · exact .inl ht
    · cases state with
      | resolving =>
        rw [resolveStep_resolving hlook]
        exact ⟨h, nofun⟩
      | done r =>
        rw [resolveStep_done hlook]
        exact ⟨h, fun t ht => h.declared (hlook.trans (by rw [show r = some t from ht]))⟩

end

theorem resolve_candid (scope : ScopeId) (type : TypeExpr) (a : Arena) :
    AnswersCandidly index a (resolve index scope type) (∃ o, index.NamesElement scope type o) :=
  resolveWith_candid (resolveDecl_runs index.scoped_true.decls _) (resolveDecl_candid _) none type a

end Resolve

/-! ## What type expressions are resolved to -/

/-- What holds of an arena between two questions. -/
structure Arena.Clear (index : Index) (a : Arena) : Prop where
  ready : ∃ w, Ready index a w
  sound : Sound index (fun _ => True) a
  candid : a.Candid index

/-- `Leads` says which element an answer is, if it is one. -/
structure TellsElement (index : Index) (Leads : TypeOrigin → Prop) (r : Option TypeId) (a : Arena) :
    Prop where
  has : a.HasAnswer r
  gives : ∀ o, Leads o → ∃ t, r = some t ∧ a.GivesElement index o t
  leads : ∀ t, r = some t → (a.typeData t).symbol = some TypeSymbol.jsxElement → ∃ o, Leads o

theorem Arena.Candid.turns (h : a.Candid index) (hs : Sound index (fun _ => True) a)
    (hturns : Turns index (fun _ => True) a a') : a'.Candid index := by
  induction hturns with
  | refl => exact h
  | tail hturns hturn ih =>
    have hs' := Turns.sound index.scoped_true hs hturns
    have hk := (hturn.moved index.scoped_true hs').retains
    cases hturn with
    | resolve scope type => exact (Resolve.resolve_candid scope type _ hs' ih).1
    | node | memberType => exact ih.quiet hs' hk rfl rfl

theorem Program.clear_after (program : Program) (queries : List Query) :
    (program.after queries).Clear program.index := by
  have hsound := sound_empty program.index fun _ => True
  obtain ⟨w, -, hready, -⟩ := askAll_serves (ready_empty program.index) queries
  exact ⟨⟨w, hready⟩, (atRest_after program.index.scoped_true queries).sound,
    (candid_empty program.index).turns hsound (askAll_turns program.index.scoped_true hsound queries)⟩

namespace Resolve

/-- A type expression is resolved to an element just if it is a name that leads to it. -/
theorem resolve_element (h : a.Clear index) (scope : ScopeId) (type : TypeExpr) :
    Runs Retains a (resolve index scope type) fun r a' =>
      a'.Clear index ∧ TellsElement index (index.NamesElement scope type) r a' := by
  obtain ⟨w, hready⟩ := h.ready
  have hruns : Runs (Resolved index fun _ => True) a (resolve index scope type)
      fun r a' => a'.HasAnswer r := resolve_runs index.scoped_true.decls h.sound trivial type
  obtain ⟨hcandid, hleads⟩ := resolve_candid scope type a h.sound h.candid
  have hyields := resolve_yields (.keyword .any) hready.faithful hready.idle scope type
  obtain ⟨w', -, hready', hstands⟩ := hyields.serves hready
  refine ⟨hruns.1.retains, ⟨⟨w', hready'⟩, h.sound.steps hruns.1.steps, hcandid⟩, hruns.2,
    fun o ho => ?_, hleads⟩
  obtain ⟨v, hv, helement⟩ := ho.outline (.keyword .any) none
  have hanswer := hstands ho.untangled
  rw [hv] at hanswer
  generalize ((resolve index scope type).run a).1 = r at hanswer
  cases hanswer with
  | @some t _ hfits =>
    refine ⟨t, rfl, givesElement_of_origin (w := w') ?_ ho.origin hready'.faithful⟩
    have hnamed : (w'.type t).or _ = some o := helement.origin ▸ hfits.origin
    rcases htype : w'.type t with _ | o'
    · rw [htype, Option.none_or] at hnamed
      split at hnamed
      · rcases ho.origin with rfl | ⟨d, decl, -, rfl⟩ <;> cases hnamed
      · cases hnamed
    · rwa [htype, Option.some_or] at hnamed

end Resolve

end ComponentSchema
