import ComponentSchema.Proofs.Checker.ObservedTypes
import ComponentSchema.Proofs.Checker.ResolutionSteps

/-!
# Queries go step by step

A query resolves type expressions one after the other, with no declaration under way in between, and
may keep an answer in the end. So it takes an arena through steps, and the same declarations are
under way afterwards: none, if none was before.

Results.
* `typeOfNode_turns`, `memberType_turns`, `returnTypeOf_turns`: the questions that may make types.
* `Program.ask_turns`, `Program.askAll_turns`: every query, and queries one after the other.
-/
namespace ComponentSchema

open Syntax Relation Arena

variable {index : Index} {S : ScopeId → Prop} {a a' a'' : Arena} {scope : ScopeId} {α β : Type}

/-- What is declared and annotated stands in scopes of `S`. -/
structure Index.Scoped (index : Index) (S : ScopeId → Prop) : Prop where
  decls : ∀ decl ∈ index.decls, S decl.scope
  typeSites : ∀ site ∈ index.typeSites, S site.scope
  functionSites : ∀ site ∈ index.functionSites, S site.scope

theorem Index.scoped_true (index : Index) : index.Scoped fun _ => True :=
  ⟨fun _ _ => trivial, fun _ _ => trivial, fun _ _ => trivial⟩

/-! ## Turns -/

/-- A turn: one type expression is resolved, or one answer is kept. -/
inductive Turn (index : Index) (S : ScopeId → Prop) : Arena → Arena → Prop
  | resolve (a : Arena) (scope : ScopeId) (type : TypeExpr) : S scope →
      Turn index S a ((Resolve.resolve index scope type).run a).2
  | node {a : Arena} (node : NodeId) (r : Option TypeId) : node.index < index.typeSites.size →
      a.nodes.lookup node = none → a.HasAnswer r →
      Turn index S a { a with nodes := (node, r) :: a.nodes }
  | memberType {a : Arena} (m : MemberId) (r : Option TypeId) : a.memberTypes.lookup m = none →
      a.HasMember m → a.HasAnswer r →
      Turn index S a { a with memberTypes := (m, r) :: a.memberTypes }

abbrev Turns (index : Index) (S : ScopeId → Prop) : Arena → Arena → Prop :=
  ReflTransGen (Turn index S)

theorem Turn.moved (hindex : index.Scoped S) (h : Sound index S a) (hturn : Turn index S a a') :
    Moved index S a a' := by
  cases hturn with
  | resolve scope type hscope => exact (Resolve.resolve_runs hindex.decls h hscope type).1.toMoved
  | node node r hnode hnew hr => exact ⟨.single (.node node r hnode hnew hr), fun _ => Iff.rfl⟩
  | memberType m r hnew hm hr => exact ⟨.single (.memberType m r hnew hm hr), fun _ => Iff.rfl⟩

theorem Turns.moved (hindex : index.Scoped S) (h : Sound index S a) (hturns : Turns index S a a') :
    Moved index S a a' := by
  induction hturns with
  | refl => exact .refl a
  | tail _ hturn ih => exact ih.trans (hturn.moved hindex (h.steps ih.steps))

theorem Turns.sound (hindex : index.Scoped S) (h : Sound index S a) (hturns : Turns index S a a') :
    Sound index S a' :=
  h.steps (hturns.moved hindex h).steps

namespace Resolve

/-! ## Questions whose answers are kept -/

variable {question : Resolve (Option TypeId)}

theorem resolve_turns (hindex : index.Scoped S) (h : Sound index S a) (hscope : S scope)
    (type : TypeExpr) :
    Runs (Turns index S) a (resolve index scope type) fun r a' => a'.HasAnswer r :=
  ⟨.single (.resolve a scope type hscope), (resolve_runs hindex.decls h hscope type).2⟩

/-- The type of a keyword is what the keyword resolves to, in whatever scope. -/
theorem intrinsic_turns (hindex : index.Scoped S) (h : Sound index S a) (hscope : S scope)
    (keyword : KeywordType) :
    Runs (Turns index S) a (intrinsic keyword) fun t a' => a'.HasType t :=
  ⟨(resolve_turns hindex h hscope (.keyword keyword)).1, (intrinsic_runs h keyword).2⟩

/-- An answer about an annotation may be kept, if there was none before. -/
theorem keepNode_turns {node : NodeId} (hnode : node.index < index.typeSites.size)
    (hnew : a.nodes.lookup node = none) (hnodes : (question.run a).2.nodes = a.nodes)
    (h : Runs (Turns index S) a question fun r a' => a'.HasAnswer r) :
    Runs (Turns index S) a
      (question >>= fun r =>
        modify (fun arena => { arena with nodes := (node, r) :: arena.nodes }) >>= fun _ => pure r)
      fun r a' => a'.HasAnswer r := by
  have hkept : Turn index S (question.run a).2 { (question.run a).2 with
      nodes := (node, (question.run a).1) :: (question.run a).2.nodes } :=
    .node node _ hnode (hnodes ▸ hnew) h.2
  exact ⟨h.1.tail hkept, h.2⟩

/-- An answer about a member may be kept, if there was none before. -/
theorem keepMember_turns {m : MemberId} (hnew : a.memberTypes.lookup m = none)
    (hmemberTypes : (question.run a).2.memberTypes = a.memberTypes)
    (hm : (question.run a).2.HasMember m)
    (h : Runs (Turns index S) a question fun r a' => a'.HasAnswer r) :
    Runs (Turns index S) a
      (question >>= fun r =>
        modify (fun arena => { arena with memberTypes := (m, r) :: arena.memberTypes }) >>=
          fun _ => pure r)
      fun r a' => a'.HasAnswer r := by
  have hkept : Turn index S (question.run a).2 { (question.run a).2 with
      memberTypes := (m, (question.run a).1) :: (question.run a).2.memberTypes } :=
    .memberType m _ (hmemberTypes ▸ hnew) hm h.2
  exact ⟨h.1.tail hkept, h.2⟩

theorem typeOfNode_turns (hindex : index.Scoped S) (h : Sound index S a) (node : NodeId) :
    Runs (Turns index S) a (typeOfNode index node) fun r a' => a'.HasAnswer r := by
  refine Runs.get_bind ?_
  rcases hlook : a.nodes.lookup node with _ | r
  · rcases hsite : index.typeSites[node.index]? with _ | site
    · exact .done .none
    · have hscope := hindex.typeSites site (Array.mem_of_getElem? hsite)
      have hresolved := (resolve_runs hindex.decls h hscope site.type).1
      exact keepNode_turns (lt_size_of_getElem? hsite) hlook hresolved.nodes
        (resolve_turns hindex h hscope site.type)
  · exact .done (h.nodes _ (mem_of_lookup hlook)).2

/-- The type of a member is worked out in one turn, whatever it is made from. -/
theorem typeOfMember_turns (hindex : index.Scoped S) (h : Sound index S a) {data : MemberData}
    (hscope : S data.scope) :
    Runs (Turns index S) a (typeOfMember index data) (fun r a' => a'.HasAnswer r) ∧
      Resolved index S a ((typeOfMember index data).run a).2 := by
  obtain ⟨name, optional, scope, type⟩ := data
  rcases type with type | _ | _
  · exact ⟨resolve_turns hindex h hscope type, (resolve_runs hindex.decls h hscope type).1⟩
  · exact ⟨(intrinsic_turns hindex h hscope .any).map fun _ _ => .some, (intrinsic_runs h .any).1⟩
  · -- An anonymous function type is what any function type resolves to.
    exact ⟨resolve_turns hindex h hscope .constructor,
      (resolve_runs hindex.decls h hscope .constructor).1⟩

theorem memberType_turns (hindex : index.Scoped S) (h : Sound index S a) (m : MemberId) :
    Runs (Turns index S) a (memberType index m) fun r a' => a'.HasAnswer r := by
  refine Runs.get_bind ?_
  rcases hlook : a.memberTypes.lookup m with _ | r
  · refine Runs.get_bind ?_
    rcases hdata : a.members[m.index]? with _ | data
    · exact .done .none
    · have hscope := h.scopes data (Array.mem_of_getElem? hdata)
      obtain ⟨hturns, hresolved⟩ := typeOfMember_turns hindex h hscope
      have hm : a.HasMember m := lt_size_of_getElem? hdata
      have hm' := hresolved.toMoved.retains.hasMember hm
      exact keepMember_turns hlook hresolved.memberTypes hm' hturns
  · exact .done (h.memberTypes _ (mem_of_lookup hlook)).2

/-! ## Inferred return types -/

/-- What is known of a value is of the arena. -/
def HasInferred (a : Arena) : Inferred → Prop
  | .type id => a.HasType id
  | _ => True

theorem HasInferred.retains {known : Inferred} (hk : Retains a a') (h : HasInferred a known) :
    HasInferred a' known := by
  cases known with
  | type id => exact hk.hasType h
  | jsx | nullish | unknown => trivial

theorem HasInferred.combine {left right : Inferred} (hleft : HasInferred a left)
    (hright : HasInferred a right) : HasInferred a (left.combine right) := by
  unfold Inferred.combine
  split
  · exact hright
  · exact hleft
  · split
    · exact hleft
    · trivial

theorem jsxElement_turns (hindex : index.Scoped S) (h : Sound index S a) (hscope : S scope) :
    Runs (Turns index S) a (jsxElement index scope) fun r a' => a'.HasAnswer r :=
  resolve_turns hindex h hscope (.reference (.qualified (.ident "JSX") "Element"))

theorem inferCast_turns (hindex : index.Scoped S) (h : Sound index S a) (hscope : S scope)
    (type : TypeExpr) :
    Runs (Turns index S) a (inferCast index scope type) fun known a' => HasInferred a' known := by
  refine (resolve_turns hindex h hscope type).bind fun r a' _ hr => ?_
  cases r with
  | none => exact .done trivial
  | some id => exact .done (hr id rfl)

theorem inferExpr_turns (hindex : index.Scoped S) (h : Sound index S a) (hscope : S scope)
    (value : Expr) :
    Runs (Turns index S) a (inferExpr index scope value) fun known a' => HasInferred a' known := by
  fun_induction inferExpr index scope value generalizing a with
  | case1 | case3 | case5 | case17 => exact .done trivial
  | case4 name => exact .done (by split <;> trivial)
  | case2 inner ih | case7 _ inner ih | case10 inner ih | case11 inner ih | case12 inner ih =>
    exact ih h
  | case6 _ left right ih ih' | case8 left right ih ih' =>
    refine (ih h).bind fun first a' hturns hfirst => ?_
    have h' := hturns.sound hindex h
    refine (ih' h').bind fun second a'' hturns' hsecond => .done ?_
    exact (hfirst.retains (hturns'.moved hindex h').retains).combine hsecond
  | case9 _ type => exact inferCast_turns hindex h hscope type
  | case13 | case14 | case15 | case16 =>
    exact (intrinsic_turns hindex h hscope _).map fun _ _ ht => ht

theorem inferReturned_turns (hindex : index.Scoped S) (h : Sound index S a) (hscope : S scope)
    (value : Option Expr) :
    Runs (Turns index S) a (inferReturned index scope value)
      fun known a' => HasInferred a' known := by
  cases value with
  | none => exact .done trivial
  | some value => exact inferExpr_turns hindex h hscope value

theorem inferAny_turns (hindex : index.Scoped S) (h : Sound index S a) (hscope : S scope)
    {known : Inferred} (hknown : HasInferred a known) (values : List (Option Expr)) :
    Runs (Turns index S) a
      (values.foldlM (fun known value => return known.combine (← inferReturned index scope value))
        known) fun known a' => HasInferred a' known := by
  induction values generalizing a known with
  | nil => exact .done hknown
  | cons value rest ih =>
    rw [List.foldlM_cons]
    have hfirst : Runs (Turns index S) a
        (inferReturned index scope value >>= fun other => pure (known.combine other))
        fun known a' => HasInferred a' known := by
      refine (inferReturned_turns hindex h hscope value).bind fun other a' hturns hother => .done ?_
      exact (hknown.retains (hturns.moved hindex h).retains).combine hother
    exact hfirst.bind fun known a' hturns hknown => ih (hturns.sound hindex h) hknown

theorem inferredType_turns (hindex : index.Scoped S) (h : Sound index S a) (hscope : S scope)
    {known : Inferred} (hknown : HasInferred a known) :
    Runs (Turns index S) a (inferredType index scope known) fun r a' => a'.HasAnswer r := by
  cases known with
  | jsx => exact jsxElement_turns hindex h hscope
  | type id => exact .done (.some hknown)
  | nullish | unknown => exact .done .none

theorem inferReturn_turns (hindex : index.Scoped S) (h : Sound index S a) (hscope : S scope)
    (body : Body) :
    Runs (Turns index S) a (inferReturn index scope body) fun r a' => a'.HasAnswer r := by
  cases body with
  | expression value =>
    refine (inferExpr_turns hindex h hscope value).bind fun known a' hturns hknown => ?_
    exact inferredType_turns hindex (hturns.sound hindex h) hscope hknown
  | block statements =>
    rw [inferReturn]
    split
    · exact (intrinsic_turns hindex h hscope .void).map fun _ _ => .some
    · have hnothing : HasInferred a .nullish := trivial
      refine (inferAny_turns hindex h hscope hnothing _).bind fun known a' hturns hknown => ?_
      exact inferredType_turns hindex (hturns.sound hindex h) hscope hknown

theorem returnTypeOf_turns (hindex : index.Scoped S) (h : Sound index S a) (function : FunctionId) :
    Runs (Turns index S) a (returnTypeOf index function) fun r a' => a'.HasAnswer r := by
  unfold returnTypeOf
  rcases hsite : index.functionSites[function.index]? with _ | site
  · exact .done .none
  · have hscope := hindex.functionSites site (Array.mem_of_getElem? hsite)
    simp only
    split
    · exact .done .none
    · split
      · exact .done .none
      · exact inferReturn_turns hindex h hscope _

end Resolve

/-! ## Queries -/

namespace Program

variable {program : Program}

theorem returnType_turns (hindex : program.index.Scoped S) (h : Sound program.index S a)
    (signature : FunctionLike) :
    Runs (Turns program.index S) a (program.facts.returnType signature)
      fun r a' => a'.HasAnswer r := by
  obtain ⟨id, parameters, _ | node⟩ := signature
  · exact Resolve.returnTypeOf_turns hindex h id
  · exact Resolve.typeOfNode_turns hindex h node.id

/-- Every query takes an arena on by turns. -/
theorem ask_turns (hindex : program.index.Scoped S) (h : Sound program.index S a) (query : Query) :
    Turns program.index S a ((program.facts.ask query).run a).2 := by
  cases query with
  | returnType signature => exact (returnType_turns hindex h signature).1
  | typeOf node => exact (Resolve.typeOfNode_turns hindex h node.id).1
  | memberType member => exact (Resolve.memberType_turns hindex h member).1
  | symbol | aliasName | intrinsicName | members | memberName | memberOptional => exact .refl

theorem askAll_turns (hindex : program.index.Scoped S) (h : Sound program.index S a)
    (queries : List Query) :
    Turns program.index S a ((queries.forM program.facts.ask).run a).2 := by
  induction queries generalizing a with
  | nil => exact .refl
  | cons query rest ih =>
    have hfirst := ask_turns hindex h query
    exact hfirst.trans (ih (hfirst.sound hindex h))

/-- The arena of a program after some queries. -/
def after (program : Program) (queries : List Query) : Arena :=
  ((queries.forM program.facts.ask).run Arena.empty).2

end Program

end ComponentSchema
