import ComponentSchema.Program
import ComponentSchema.Proofs.Checker.QuestionAnswers

/-!
# What is seen of a program

A program may be asked queries in any order. What can be seen of the type of an annotation is found
out by going from it to the types of its members, and on from there, and looking at what is reached.

Results.
* `follow_serves`: a path leads to what the outline says it leads to.
* `answer_serves`: what is seen of the type of an untangled annotation is what the annotation
  denotes, whatever was asked before.
-/
namespace ComponentSchema

open Syntax Relation

/-! ## Queries -/

/-- A query to the facts of a program. -/
inductive Query where
  | returnType (signature : FunctionLike)
  | typeOf (node : TypeNode)
  | symbol (type : TypeId)
  | aliasName (type : TypeId)
  | intrinsicName (type : TypeId)
  | members (type : TypeId)
  | memberName (member : MemberId)
  | memberType (member : MemberId)
  | memberOptional (member : MemberId)

/-- What is seen of a member. -/
structure MemberView (M : Type) where
  id : M
  name : String
  optional : Bool

/-- What is seen of a type. -/
structure TypeView (T M : Type) where
  id : T
  symbol : Option TypeSymbol
  aliasName : Option String
  intrinsicName : Option String
  members : List (MemberView M)

/-- The same with other identities. -/
def MemberView.rename {M M' : Type} (σ : M → M') (view : MemberView M) : MemberView M' :=
  ⟨σ view.id, view.name, view.optional⟩

/-- The same with other identities. -/
def TypeView.rename {T T' M M' : Type} (ρ : T → T') (σ : M → M') (view : TypeView T M) :
    TypeView T' M' :=
  ⟨ρ view.id, view.symbol, view.aliasName, view.intrinsicName, view.members.map (·.rename σ)⟩

namespace TypeFacts

variable {m : Type → Type} [Monad m] (facts : TypeFacts m)

/-- Puts a query and forgets the answer. -/
def ask : Query → m Unit
  | .returnType signature => discard (facts.returnType signature)
  | .typeOf node => discard (facts.typeOf node)
  | .symbol type => discard (facts.symbol type)
  | .aliasName type => discard (facts.aliasName type)
  | .intrinsicName type => discard (facts.intrinsicName type)
  | .members type => discard (facts.members type)
  | .memberName member => discard (facts.memberName member)
  | .memberType member => discard (facts.memberType member)
  | .memberOptional member => discard (facts.memberOptional member)

/-- Looks at a member. -/
def memberView (member : MemberId) : m (MemberView MemberId) :=
  return ⟨member, ← facts.memberName member, ← facts.memberOptional member⟩

/-- Looks at a type. -/
def typeView (type : TypeId) : m (TypeView TypeId MemberId) :=
  return ⟨type, ← facts.symbol type, ← facts.aliasName type, ← facts.intrinsicName type,
    ← (← facts.members type).mapM facts.memberView⟩

/-- Goes from a type to the type of a member, and on from there; a path says which member to take at
each step. -/
def follow : List Nat → Option TypeId → m (Option TypeId)
  | _, none => pure none
  | [], some type => pure (some type)
  | position :: path, some type => do
    match (← facts.members type)[position]? with
    | none => pure none
    | some member => follow path (← facts.memberType member)

/-- Looks at the type at the end of a path, if there is one. -/
def look (type : Option TypeId) (path : List Nat) : m (Option (TypeView TypeId MemberId)) := do
  match ← facts.follow path type with
  | none => pure none
  | some type => some <$> facts.typeView type

/-- What is seen of the type of an annotation along several paths, after some queries. -/
def answer (queries : List Query) (node : TypeNode) (paths : List (List Nat)) :
    m (List (Option (TypeView TypeId MemberId))) := do
  queries.forM facts.ask
  let type ← facts.typeOf node
  paths.mapM (facts.look type)

end TypeFacts

/-- What is seen of the type of an annotation along several paths, if a fresh program is asked some
queries before. -/
def Program.answer (program : Program) (queries : List Query) (node : TypeNode)
    (paths : List (List Nat)) : List (Option (TypeView TypeId MemberId)) :=
  ((program.facts.answer queries node paths).run Arena.empty).1

/-! ## What is seen -/

section

variable {index : Index} {a a' : Arena} {w w' : Naming} {v : Outline} {o : TypeOrigin}

/-- The outline at the end of a path, if there is one. -/
def outlineAt (index : Index) : List Nat → TypeOrigin → Option Outline
  | [], o => meaning index o
  | position :: path, o =>
    match meaning index o with
    | none => none
    | some v =>
      match v.members[position]? with
      | none => none
      | some member => outlineAt index path (.member member.owner member.data)

/-- A view shows a member of an outline. -/
structure ShowsMember (a : Arena) (w : Naming) (view : MemberView MemberId) (o : OutlineMember) :
    Prop where
  fits : FitsMember a w view.id o
  name : view.name = o.data.name
  optional : view.optional = o.data.optional

/-- A view shows an outline. -/
structure Shows (a : Arena) (w : Naming) (view : TypeView TypeId MemberId) (v : Outline) : Prop where
  fits : Fits a w view.id v
  symbol : view.symbol = v.symbol
  aliasName : view.aliasName = v.aliasName
  intrinsicName : view.intrinsicName = v.intrinsic.map (·.text)
  members : List.Forall₂ (ShowsMember a w) view.members v.members

theorem Shows.extend {view : TypeView TypeId MemberId} (h : Shows a w view v)
    (he : Extends a w a' w') : Shows a' w' view v :=
  ⟨h.fits.extend he, h.symbol, h.aliasName, h.intrinsicName,
    h.members.imp fun _ _ hm => ⟨hm.fits.extend he, hm.name, hm.optional⟩⟩

theorem showsAny_extend {view : Option (TypeView TypeId MemberId)} {v : Option Outline}
    (h : Option.Rel (Shows a w) view v) (he : Extends a w a' w') :
    Option.Rel (Shows a' w') view v := by
  cases h with
  | none => exact .none
  | some h => exact .some (h.extend he)

/-- The annotations of the members of what an origin denotes are untangled, and so is all that they
involve. -/
def TypeOrigin.Clear (index : Index) (o : TypeOrigin) : Prop :=
  ∀ v ∈ meaning index o, ∀ member ∈ v.members, ∀ type, member.data.type = .written type →
    index.UntangledSite ⟨member.data.scope, type⟩

theorem clear_site {node : NodeId}
    (h : ∀ site, index.typeSites[node.index]? = some site → index.UntangledSite site) :
    (TypeOrigin.site node).Clear index := by
  intro v hv member hmember type htype
  rw [meaning] at hv
  split at hv
  · cases hv
  · rename_i site hsite
    exact (h site hsite).of_involves (outlineOf_involves site v hv member hmember type htype)

theorem TypeOrigin.Clear.member (h : o.Clear index) (hv : meaning index o = some v)
    {member : OutlineMember} (hmember : member ∈ v.members) :
    (TypeOrigin.member member.owner member.data).Clear index ∧
      (TypeOrigin.member member.owner member.data).Untangled index := by
  have hsite := h v hv member hmember
  refine ⟨fun v' hv' member' hmember' type' htype' => ?_, fun type htype => (hsite type htype).names⟩
  rw [meaning, memberOutline] at hv'
  split at hv'
  · rename_i type htype
    have hinvolves := outlineOf_involves ⟨member.data.scope, type⟩ v' hv' member' hmember' type' htype'
    exact (hsite type htype).of_involves hinvolves
  · obtain rfl := Option.some.inj hv'
    cases hmember'
  · obtain rfl := Option.some.inj hv'
    cases hmember'

/-! ## Queries to a program -/

variable {program : Program}

theorem ask_serves (h : Ready program.index a w) (query : Query) :
    Serves program.index a w (program.facts.ask query) fun _ _ _ => True := by
  cases query with
  | returnType signature =>
    obtain ⟨id, parameters, _ | node⟩ := signature
    · exact (Resolve.returnTypeOf_serves h id).map fun _ _ _ _ => trivial
    · exact (Resolve.typeOfNode_serves h node.id).map fun _ _ _ _ => trivial
  | typeOf node => exact (Resolve.typeOfNode_serves h node.id).map fun _ _ _ _ => trivial
  | memberType member => exact (Resolve.memberType_serves h member).map fun _ _ _ _ => trivial
  | symbol | aliasName | intrinsicName | members | memberName | memberOptional =>
    exact Serves.map (Serves.get_bind (.done (Q := fun _ _ _ => True) h trivial)) fun _ _ _ _ => trivial

theorem askAll_serves (h : Ready program.index a w) (queries : List Query) :
    Serves program.index a w (queries.forM program.facts.ask) fun _ _ _ => True := by
  induction queries generalizing a w with
  | nil => exact .done h trivial
  | cons query rest ih => exact (ask_serves h query).bind fun _ _ _ _ h' _ => ih h'

theorem memberView_serves (h : Ready program.index a w) {member : MemberId} {o : OutlineMember}
    (hm : FitsMember a w member o) :
    Serves program.index a w (program.facts.memberView member) fun view a' w' =>
      ShowsMember a' w' view o := by
  refine Serves.get_bind (Serves.get_bind (.done h ⟨hm, ?_, ?_⟩))
  · exact congrArg (·.name) hm.memberData
  · exact congrArg (·.optional) hm.memberData

theorem mapM_memberView_serves (h : Ready program.index a w) {members : List MemberId}
    {os : List OutlineMember} (hmembers : List.Forall₂ (FitsMember a w) members os) :
    Serves program.index a w (members.mapM program.facts.memberView) fun views a' w' =>
      List.Forall₂ (ShowsMember a' w') views os := by
  induction members generalizing a w os with
  | nil =>
    cases hmembers
    exact .done h .nil
  | cons member rest ih =>
    rcases hmembers with _ | ⟨hm, hrest⟩
    rw [List.mapM_cons]
    refine (memberView_serves h hm).bind fun view a' w' he h' hview => ?_
    refine (ih h' (hrest.imp fun _ _ hf => hf.extend he)).bind fun views a'' w'' he' h'' hviews => ?_
    exact .done h'' (.cons ⟨hview.fits.extend he', hview.name, hview.optional⟩ hviews)

theorem typeView_serves (h : Ready program.index a w) {type : TypeId} (hf : Fits a w type v) :
    Serves program.index a w (program.facts.typeView type) fun view a' w' => Shows a' w' view v := by
  obtain ⟨members, hdata, hmembers⟩ := hf.typeData
  refine Serves.get_bind (Serves.get_bind (Serves.get_bind (Serves.get_bind ?_)))
  show Serves program.index a w ((a.typeData type).members.mapM program.facts.memberView >>=
    fun views => pure (TypeView.mk type (a.typeData type).symbol (a.typeData type).aliasName
      ((a.typeData type).intrinsic.map (·.text)) views)) _
  rw [hdata]
  refine (mapM_memberView_serves h hmembers).bind fun views a' w' he h' hviews => .done h' ?_
  exact ⟨hf.extend he, rfl, rfl, rfl, hviews⟩

theorem getElem?_forall₂ {γ δ : Type} {R : γ → δ → Prop} {xs : List γ} {ys : List δ}
    (h : List.Forall₂ R xs ys) (i : Nat) :
    (xs[i]? = none ∧ ys[i]? = none) ∨ ∃ x y, xs[i]? = some x ∧ ys[i]? = some y ∧ R x y := by
  induction h generalizing i with
  | nil => exact .inl ⟨rfl, rfl⟩
  | cons hxy _ ih =>
    cases i with
    | zero => exact .inr ⟨_, _, rfl, rfl, hxy⟩
    | succ i => exact ih i

theorem follow_serves (h : Ready program.index a w) (path : List Nat) {r : Option TypeId}
    (hr : Stands a w r (meaning program.index o)) (ho : o.Clear program.index) :
    Serves program.index a w (program.facts.follow path r) fun r' a' w' =>
      Stands a' w' r' (outlineAt program.index path o) := by
  induction path generalizing a w r o with
  | nil =>
    rw [outlineAt]
    cases r <;> exact .done h hr
  | cons position path ih =>
    rw [outlineAt]
    rcases hv : meaning program.index o with _ | v
    · rw [hv] at hr
      cases hr
      exact .done h .none
    · rw [hv] at hr
      cases hr with
      | @some type _ hf =>
        obtain ⟨members, hdata, hmembers⟩ := hf.typeData
        refine Serves.get_bind ?_
        show Serves program.index a w (match (a.typeData type).members[position]? with
          | none => pure none
          | some member => program.facts.memberType member >>= program.facts.follow path) _
        rw [hdata]
        rcases getElem?_forall₂ hmembers position with ⟨hnone, hnone'⟩ | ⟨m, member, hm, hmember, hfit⟩
        · simp only [hnone, hnone']
          exact .done h .none
        · simp only [hm, hmember]
          obtain ⟨hclear, huntangled⟩ := ho.member hv (List.mem_of_getElem? hmember)
          refine (Resolve.memberType_serves h m).bind fun r' a' w' _ h' hr' => ?_
          exact ih h' (hr' member.owner member.data hfit huntangled) hclear

theorem look_serves (h : Ready program.index a w) (path : List Nat) {r : Option TypeId}
    (hr : Stands a w r (meaning program.index o)) (ho : o.Clear program.index) :
    Serves program.index a w (program.facts.look r path) fun view a' w' =>
      Option.Rel (Shows a' w') view (outlineAt program.index path o) := by
  refine (follow_serves h path hr ho).bind fun r' a' w' he h' hr' => ?_
  rcases hv : outlineAt program.index path o with _ | v
  · rw [hv] at hr'
    cases hr'
    exact .done h' .none
  · rw [hv] at hr'
    cases hr' with
    | some hf => exact (typeView_serves h' hf).map fun _ _ _ hs => .some hs

theorem lookAll_serves (h : Ready program.index a w) (paths : List (List Nat)) {r : Option TypeId}
    (hr : Stands a w r (meaning program.index o)) (ho : o.Clear program.index) :
    Serves program.index a w (paths.mapM (program.facts.look r)) fun views a' w' =>
      List.Forall₂ (Option.Rel (Shows a' w')) views
        (paths.map fun path => outlineAt program.index path o) := by
  induction paths generalizing a w with
  | nil => exact .done h .nil
  | cons path rest ih =>
    rw [List.mapM_cons]
    refine (look_serves h path hr ho).bind fun view a' w' he h' hview => ?_
    refine (ih h' (hr.extend he)).bind fun views a'' w'' he' h'' hviews => .done h'' ?_
    exact .cons (showsAny_extend hview he') hviews

/-- What is seen of the type of an untangled annotation is what the annotation denotes. -/
theorem answer_serves (h : Ready program.index a w) (queries : List Query) (node : TypeNode)
    (hsite : ∀ site, program.index.typeSites[node.id.index]? = some site →
      program.index.UntangledSite site) (paths : List (List Nat)) :
    Serves program.index a w (program.facts.answer queries node paths) fun views a' w' =>
      List.Forall₂ (Option.Rel (Shows a' w')) views
        (paths.map fun path => outlineAt program.index path (.site node.id)) := by
  refine (askAll_serves h queries).bind fun _ _ _ _ h' _ => ?_
  refine (Resolve.typeOfNode_serves h' node.id).bind fun r _ _ _ h'' hr => ?_
  exact lookAll_serves h'' paths (hr fun site hs => (hsite site hs).names) (clear_site hsite)

end

end ComponentSchema
