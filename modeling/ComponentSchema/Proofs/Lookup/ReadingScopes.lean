import ComponentSchema.Proofs.Binder.PiecePlacement
import ComponentSchema.Proofs.ReturnInference.InferenceSteps

/-!
# Where types are read

Types are resolved when they are asked for, and some of them from far away: a member is made when the
type that it belongs to is, and its annotation is resolved when somebody asks for the type of the member.
So a member carries the scope that its annotation is read in.

Whatever has been asked, a type is read in the scope of a spot where it is written: the annotation of a
member comes from a body of an interface or from a literal, and that is part of a piece that is kept with
the scope of the member (`Placed`).

Results.
* `resolveWith_placed`, `resolveDecl_placed`: members that are made on the way are placed.
* `Program.placed_after`: so are all members, after whatever queries.
* `Program.Reads.holding`: whatever is read stands in a piece that is kept with the scope.
-/
namespace ComponentSchema

open Syntax

/-! ## Types in pieces -/

/-- The annotation of a member, if it has one. -/
def Syntax.TypeMember.type? : TypeMember → Option TypeExpr
  | .property _ _ type => type
  | .getter _ type => type
  | .method _ _ => none
  | .other => none

/-- The types that are read from a piece itself. -/
def Piece.types : Piece → List TypeExpr
  | .type read => [read]
  | .body code => code.casts
  | .declares _ (.interface bodies) => bodies.flatten.filterMap (·.type?)
  | .declares _ (.typeAlias aliased) => [aliased]
  | .declares _ .nominal => []
  | .imports _ _ => []

/-- A type stands in a piece: it is read from the piece itself, or it annotates a member of a literal
from which another type in the piece takes its members. -/
inductive Piece.Contains (piece : Piece) : TypeExpr → Prop where
  | direct {type : TypeExpr} (htype : type ∈ piece.types) : Contains piece type
  | member {outer inner : TypeExpr} {members : List TypeMember} {member : TypeMember}
    (houter : Contains piece outer) (hmembers : members ∈ outer.literals) (hmember : member ∈ members)
    (hinner : member.type? = some inner) : Contains piece inner

/-- A type stands in a piece that is kept with the scope. -/
def Index.Holding (index : Index) (scope : ScopeId) (type : TypeExpr) : Prop :=
  ∃ piece, index.Keeps scope piece ∧ piece.Contains type

/-- The annotations of several members are held with a scope. -/
def Index.HoldingAll (index : Index) (scope : ScopeId) (members : List TypeMember) : Prop :=
  ∀ member ∈ members, ∀ type, member.type? = some type → index.Holding scope type

/-- A program reads a type in a scope, when it is asked for the type of an annotation, resolves an alias,
infers the return type of a function, or is asked for the type of a member. -/
inductive Program.Reads (program : Program) (queries : List Query) : ScopeId → TypeExpr → Prop where
  | site {site : TypeSite} (hsite : site ∈ program.index.typeSites) :
    Reads program queries site.scope site.type
  | rightSide {d : DeclId} {scope : ScopeId} {type : TypeExpr}
    (halias : program.index.IsAlias d scope type) : Reads program queries scope type
  | cast {site : FunctionSite} {body : Body} {type : TypeExpr}
    (hsite : site ∈ program.index.functionSites) (hbody : site.body = some body)
    (htype : type ∈ body.casts) : Reads program queries site.scope type
  | member {data : MemberData} {type : TypeExpr} (hdata : data ∈ (program.after queries).members)
    (htype : data.type = .written type) : Reads program queries data.scope type

/-! ## Members -/

/-- The annotation of every member is held with the scope of the member. -/
def Placed (index : Index) (a : Arena) : Prop :=
  ∀ data ∈ a.members, ∀ type, data.type = .written type → index.Holding data.scope type

/-- The relation between an arena and a later one that members stay placed. -/
def KeepsPlaced (index : Index) (a a' : Arena) : Prop := Placed index a → Placed index a'

variable {index : Index} {a a' : Arena} {scope : ScopeId} {d : DeclId}

instance : Std.Refl (KeepsPlaced index) := ⟨fun _ h => h⟩

instance : IsTrans Arena (KeepsPlaced index) := ⟨fun _ _ _ h h' hp => h' (h hp)⟩

theorem KeepsPlaced.of_members (h : a'.members = a.members) : KeepsPlaced index a a' :=
  fun hp => by rwa [Placed, h]

/-- The annotation of a member that a signature declares is the one of the signature. -/
theorem type_of_data? {member : TypeMember} {data : MemberData} {type : TypeExpr}
    (h : member.data? scope = some data) (htype : data.type = .written type) :
    member.type? = some type := by
  have hwritten : ∀ {own : Option TypeExpr},
      MemberType.ofWritten own = .written type → own = some type := by
    intro own heq
    cases own <;> cases heq
    rfl
  cases member with
  | property key optional own | getter key own =>
    obtain ⟨name, -, rfl⟩ := Option.map_eq_some_iff.1 h
    exact hwritten htype
  | method key optional =>
    obtain ⟨name, -, rfl⟩ := Option.map_eq_some_iff.1 h
    cases htype
  | other => cases h

/-- A member that signatures declare has the annotation of one of them. -/
theorem placed_declaredMembers {members : List TypeMember} (h : index.HoldingAll scope members)
    {data : MemberData} (hdata : data ∈ declaredMembers scope members) {type : TypeExpr}
    (htype : data.type = .written type) : index.Holding data.scope type := by
  obtain ⟨member, hmember, hmade⟩ := List.mem_filterMap.1 (mem_of_mem_firstOfEachName hdata)
  rw [Resolve.scope_of_mem_declaredMembers hdata]
  exact h member hmember type (type_of_data? hmade htype)

namespace Resolve

theorem push_placed (data : TypeData) : Runs (KeepsPlaced index) a (push data) fun _ _ => True :=
  ⟨.of_members rfl, trivial⟩

theorem intrinsic_placed (keyword : KeywordType) :
    Runs (KeepsPlaced index) a (intrinsic keyword) fun _ _ => True := by
  refine Runs.get_bind ?_
  rcases a.intrinsics.lookup keyword with _ | t
  · exact ⟨.of_members rfl, trivial⟩
  · exact .done trivial

theorem builtinJsxElement_placed : Runs (KeepsPlaced index) a builtinJsxElement fun _ _ => True := by
  refine Runs.get_bind ?_
  rcases a.jsxElement with _ | t
  · exact ⟨.of_members rfl, trivial⟩
  · exact .done trivial

theorem mapM_pushMember_placed (data : List MemberData)
    (h : ∀ member ∈ data, ∀ type, member.type = .written type → index.Holding member.scope type) :
    Runs (KeepsPlaced index) a (data.mapM pushMember) fun _ _ => True := by
  induction data generalizing a with
  | nil => exact .done trivial
  | cons first rest ih =>
    obtain ⟨hfirst, hrest⟩ := List.forall_mem_cons.1 h
    have hpushed : Runs (KeepsPlaced index) a (pushMember first) fun _ _ => True := by
      refine ⟨fun hp data hdata => ?_, trivial⟩
      rcases Array.mem_push.1 hdata with hdata | rfl
      · exact hp data hdata
      · exact hfirst
    rw [List.mapM_cons]
    exact hpushed.bind fun _ _ _ _ => (ih hrest).bind fun _ _ _ _ => .done trivial

theorem objectType_placed (symbol : TypeSymbol) (aliasName : Option String)
    {members : List TypeMember} (h : index.HoldingAll scope members) :
    Runs (KeepsPlaced index) a (objectType symbol aliasName scope members) fun _ _ => True :=
  (mapM_pushMember_placed _ fun _ hdata _ htype => placed_declaredMembers h hdata htype).bind
    fun _ _ _ _ => push_placed _

variable {declared : DeclId → Resolve (Option TypeId)}

theorem resolveName_placed
    (hd : ∀ d a, Runs (KeepsPlaced index) a (declared d) fun _ _ => True) (segments : List String) :
    Runs (KeepsPlaced index) a (resolveName index declared scope segments) fun _ _ => True := by
  unfold resolveName
  rcases index.lookup scope segments with _ | d
  · simp only
    split
    · exact builtinJsxElement_placed.map fun _ _ => id
    · exact .done trivial
  · exact hd d a

theorem resolveParts_placed {parts : List TypeExpr}
    (hparts : ∀ part ∈ parts, ∀ {a : Arena},
      Runs (KeepsPlaced index) a (resolveWith index declared scope none part) fun _ _ => True) :
    Runs (KeepsPlaced index) a (resolveParts index declared scope parts) fun _ _ => True := by
  induction parts generalizing a with
  | nil =>
    rw [resolveParts]
    exact .done trivial
  | cons part rest ih =>
    obtain ⟨hpart, hrest⟩ := List.forall_mem_cons.1 hparts
    rw [resolveParts_cons]
    exact hpart.bind fun _ _ _ _ => (ih hrest).bind fun _ _ _ _ => .done trivial

theorem resolveWith_placed (hd : ∀ d a, Runs (KeepsPlaced index) a (declared d) fun _ _ => True)
    (aliasName : Option String) (type : TypeExpr)
    (h : ∀ members ∈ type.literals, index.HoldingAll scope members) :
    Runs (KeepsPlaced index) a (resolveWith index declared scope aliasName type) fun _ _ => True := by
  induction type using TypeExpr.resolutionRec generalizing aliasName a with
  | keyword keyword =>
    rw [resolveWith]
    exact (intrinsic_placed keyword).map fun _ _ => id
  | parenthesized inner ih =>
    rw [resolveWith]
    exact ih aliasName h
  | reference name =>
    rw [resolveWith]
    exact resolveName_placed hd name.segments
  | literal members =>
    rw [resolveWith]
    exact (objectType_placed _ aliasName (h members (List.mem_singleton_self _))).map fun _ _ => id
  | single parts part hsingle ih =>
    rw [TypeExpr.literals_single hsingle] at h
    rw [resolveWith_single hsingle]
    exact ih none h
  | several parts hseveral =>
    rw [resolveWith_several hseveral]
    exact (push_placed _).map fun _ _ => id
  | intersection parts ih =>
    rw [TypeExpr.literals, literalsOfAll_eq] at h
    have hparts : Runs (KeepsPlaced index) a (resolveParts index declared scope parts)
        fun _ _ => True :=
      resolveParts_placed fun part hpart _ => ih part hpart none fun members hmembers =>
        h members (List.mem_flatMap.2 ⟨part, hpart, hmembers⟩)
    rw [resolveWith]
    refine hparts.bind fun types a' _ _ => ?_
    have hjoined : Runs (KeepsPlaced index) a' (joinMembers types) fun _ _ => True :=
      ⟨.of_members rfl, trivial⟩
    exact hjoined.bind fun members _ _ _ => (push_placed _).map fun _ _ => id
  | function | constructor | other =>
    rw [resolveWith]
    exact (push_placed _).map fun _ _ => id

/-- The literals in a type that is held are held. -/
theorem holding_literals {type : TypeExpr} (h : index.Holding scope type) :
    ∀ members ∈ type.literals, index.HoldingAll scope members := by
  obtain ⟨piece, hkeeps, hcontains⟩ := h
  exact fun members hmembers member hmember inner hinner =>
    ⟨piece, hkeeps, .member hcontains hmembers hmember hinner⟩

/-- What a declaration is made from is held with its scope. -/
theorem holding_decl {decl : TypeDecl} (hdecl : decl ∈ index.decls) {part : TypeDeclKind}
    (hpart : part ∈ decl.kind.parts) {type : TypeExpr}
    (htype : type ∈ (Piece.declares decl.name part).types) : index.Holding decl.scope type :=
  ⟨.declares decl.name part, ⟨decl, hdecl, rfl, rfl, hpart⟩, .direct htype⟩

theorem declaredType_placed {decl : TypeDecl} (hdecl : decl ∈ index.decls)
    (hd : ∀ d a, Runs (KeepsPlaced index) a (declared d) fun _ _ => True) :
    Runs (KeepsPlaced index) a (declaredType index declared decl) fun _ _ => True := by
  obtain ⟨name, scope, bodies | type⟩ := decl
  · refine (objectType_placed _ none fun member hmember type htype => ?_).map fun _ _ => id
    obtain ⟨members, hmembers, hmember⟩ := List.mem_flatten.1 hmember
    have hpart : TypeDeclKind.interface [members] ∈ (TypeDeclKind.interface bodies).parts :=
      List.mem_map_of_mem hmembers
    refine holding_decl hdecl hpart (List.mem_filterMap.2 ⟨member, ?_, htype⟩)
    simpa using hmember
  · exact resolveWith_placed hd (some name) type
      (holding_literals (holding_decl hdecl (List.mem_singleton_self _) (List.mem_singleton_self _)))
  · exact (push_placed _).map fun _ _ => id

/-- Whatever is under way, and however deep resolutions may nest. -/
theorem resolveDecl_placed (depth : Nat) (d : DeclId) (a : Arena) :
    Runs (KeepsPlaced index) a (resolveDecl index depth d) fun _ _ => True := by
  induction depth generalizing d a with
  | zero => exact .done trivial
  | succ depth ih =>
    refine Runs.get_bind ?_
    rcases a.declared.lookup d with _ | state
    · rcases hdecl : index.decls[d.index]? with _ | decl
      · exact .done trivial
      · have hmark : ∀ (state : DeclState) (b : Arena), Runs (KeepsPlaced index) b
            (modify fun arena => { arena with declared := (d, state) :: arena.declared } :
              Resolve Unit) fun _ _ => True := fun _ _ => ⟨.of_members rfl, trivial⟩
        refine (hmark .resolving a).bind fun _ _ _ _ => ?_
        refine (declaredType_placed (Array.mem_of_getElem? hdecl) ih).bind fun _ b _ _ => ?_
        exact (hmark _ b).bind fun _ _ _ _ => .done trivial
    · cases state <;> exact .done trivial

theorem resolve_placed {type : TypeExpr} (h : ∀ members ∈ type.literals, index.HoldingAll scope members)
    (a : Arena) : Runs (KeepsPlaced index) a (resolve index scope type) fun _ _ => True :=
  resolveWith_placed (resolveDecl_placed _) none type h

/-! ## Questions -/

theorem typeOfNode_placed (node : NodeId) (a : Arena) :
    Runs (KeepsPlaced index) a (typeOfNode index node) fun _ _ => True := by
  refine Runs.get_bind ?_
  rcases a.nodes.lookup node with _ | r
  · rcases hsite : index.typeSites[node.index]? with _ | site
    · exact .done trivial
    · have hheld : index.Holding site.scope site.type :=
        ⟨.type site.type, Array.mem_of_getElem? hsite, .direct (List.mem_singleton_self _)⟩
      refine (resolve_placed (holding_literals hheld) a).bind fun r b _ _ => ?_
      exact ⟨.of_members rfl, trivial⟩
  · exact .done trivial

theorem returnTypeOf_placed (function : FunctionId) (a : Arena) :
    Runs (KeepsPlaced index) a (returnTypeOf index function) fun _ _ => True := by
  refine returnTypeOf_along (P := fun scope type =>
    ∀ members ∈ type.literals, index.HoldingAll scope members) fun site hsite => ⟨?_, ?_⟩
  · exact ⟨fun type htype a => (resolve_placed htype a).1, fun _ => nofun, nofun⟩
  · intro body hbody type htype
    exact holding_literals ⟨.body body, ⟨site, Array.mem_of_getElem? hsite, rfl, hbody⟩, .direct htype⟩

theorem memberType_placed (m : MemberId) (a : Arena) :
    Runs (KeepsPlaced index) a (memberType index m) fun _ _ => True := by
  refine Runs.get_bind ?_
  rcases a.memberTypes.lookup m with _ | r
  · refine Runs.get_bind ?_
    rcases hdata : a.members[m.index]? with _ | data
    · exact .done trivial
    · have hkept : ∀ (r : Option TypeId) (b : Arena), Runs (KeepsPlaced index) b
          (do
            modify fun arena => { arena with memberTypes := (m, r) :: arena.memberTypes }
            pure r : Resolve (Option TypeId)) fun _ _ => True := fun _ _ => ⟨.of_members rfl, trivial⟩
      have htype : Runs (KeepsPlaced index) a (typeOfMember index data) fun _ _ => True := by
        refine ⟨fun hp => ?_, trivial⟩
        have hheld := hp data (Array.mem_of_getElem? hdata)
        rcases data with ⟨name, optional, scope, type | _ | _⟩
        · exact (resolve_placed (holding_literals (hheld type rfl)) a).1 hp
        · exact (intrinsic_placed .any).1 hp
        · exact (push_placed _).1 hp
      exact htype.bind fun r b _ _ => hkept r b
  · exact .done trivial

end Resolve

namespace Program

variable {program : Program}

theorem ask_placed (query : Query) (a : Arena) :
    KeepsPlaced program.index a ((program.facts.ask query).run a).2 := by
  cases query with
  | returnType signature =>
    obtain ⟨id, parameters, _ | node⟩ := signature
    · exact (Resolve.returnTypeOf_placed id a).1
    · exact (Resolve.typeOfNode_placed node.id a).1
  | typeOf node => exact (Resolve.typeOfNode_placed node.id a).1
  | memberType member => exact (Resolve.memberType_placed member a).1
  | symbol | aliasName | intrinsicName | members | memberName | memberOptional => exact id

/-- Whatever has been asked, the members are placed. -/
theorem placed_after (program : Program) (queries : List Query) :
    Placed program.index (program.after queries) := by
  have hall : ∀ a, KeepsPlaced program.index a ((queries.forM program.facts.ask).run a).2 := by
    induction queries with
    | nil => exact fun _ => id
    | cons query rest ih => exact fun a h => ih _ (ask_placed query a h)
  exact hall Arena.empty fun _ hdata => by simp [Arena.empty] at hdata

/-- Every type is read with a scope that a piece is kept with in which the type stands. -/
theorem Reads.holding {queries : List Query} {scope : ScopeId} {type : TypeExpr}
    (h : program.Reads queries scope type) : program.index.Holding scope type := by
  cases h with
  | @site site hsite => exact ⟨.type site.type, hsite, .direct (List.mem_singleton_self _)⟩
  | @rightSide d _ _ halias =>
    obtain ⟨name, hdecl⟩ := halias
    exact Resolve.holding_decl (Array.mem_of_getElem? hdecl) (List.mem_singleton_self _)
      (List.mem_singleton_self _)
  | @cast site body _ hsite hbody htype => exact ⟨.body body, ⟨site, hsite, rfl, hbody⟩, .direct htype⟩
  | member hdata htype => exact program.placed_after queries _ hdata _ htype

end Program

end ComponentSchema
