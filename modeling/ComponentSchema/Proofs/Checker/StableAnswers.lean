import ComponentSchema.Proofs.Checker.FollowedReferences

/-!
# Stable answers

A program gives no answer twice in different ways. What has been answered about an annotation or a
member is kept; a type or a member, once it is there, never changes; a keyword has one type; and all
references to a declaration are answered alike, however deep in other resolutions they are followed,
unless the declaration refers to itself.

Results.
* `Program.typeOf_again`, `Program.memberType_again`: the same question again.
* `Told.answered`: what references were answered with can be read off the arena.
* `Program.answers_stable`: all of it, for every program and all sequences of queries.
-/
namespace ComponentSchema

open Syntax Relation Arena

variable {index : Index} {S : ScopeId → Prop} {a a' : Arena}

/-! ## What holds between queries -/

/-- What holds of every arena that a program gets to by turns. -/
structure AtRest (index : Index) (S : ScopeId → Prop) (a : Arena) : Prop where
  sound : Sound index S a
  accounts : Accounts index a
  idle : Marked [] a

theorem atRest_empty (index : Index) (S : ScopeId → Prop) : AtRest index S Arena.empty :=
  ⟨sound_empty index S, accounts_empty index, fun d => by simp [Arena.empty]⟩

theorem AtRest.turns (hindex : index.Scoped S) (h : AtRest index S a)
    (hturns : Turns index S a a') : AtRest index S a' := by
  have hmoved := hturns.moved hindex h.sound
  exact ⟨h.sound.steps hmoved.steps, h.accounts.steps hmoved.steps,
    fun d => (hmoved.resolving d).trans (h.idle d)⟩

namespace Program

variable {program : Program}

theorem after_append (earlier later : List Query) :
    program.after (earlier ++ later) =
      ((later.forM program.facts.ask).run (program.after earlier)).2 := by
  simp only [after, List.forM_eq_forM, List.forM_append]
  rfl

theorem after_cons (earlier later : List Query) (query : Query) :
    program.after (earlier ++ query :: later) = ((later.forM program.facts.ask).run
      ((program.facts.ask query).run (program.after earlier)).2).2 :=
  after_append earlier (query :: later)

theorem atRest_after (hindex : program.index.Scoped S) (queries : List Query) :
    AtRest program.index S (program.after queries) :=
  (atRest_empty program.index S).turns hindex (askAll_turns hindex (sound_empty _ S) queries)

/-- What an arena has after some queries it has after more. -/
theorem retains_after (hindex : program.index.Scoped S) (earlier later : List Query) :
    Retains (program.after earlier) (program.after (earlier ++ later)) := by
  have hrest := atRest_after hindex earlier
  rw [after_append]
  exact ((askAll_turns hindex hrest.sound later).moved hindex hrest.sound).retains

end Program

/-! ## The same question again -/

namespace Resolve

theorem typeOfNode_known {node : NodeId} {r : Option TypeId} (h : a.nodes.lookup node = some r) :
    (typeOfNode index node).run a = (r, a) := by
  simp only [typeOfNode, StateT.run_bind, StateT.run_get, pure_bind, h]
  rfl

theorem typeOfNode_nowhere (h : Sound index S a) {node : NodeId}
    (hnode : index.typeSites[node.index]? = none) : (typeOfNode index node).run a = (none, a) := by
  have hnew : a.nodes.lookup node = none := by
    rcases hlook : a.nodes.lookup node with _ | r
    · rfl
    · have hlt := (h.nodes _ (mem_of_lookup hlook)).1
      rw [Array.getElem?_eq_getElem hlt] at hnode
      cases hnode
  simp only [typeOfNode, StateT.run_bind, StateT.run_get, pure_bind, hnew, hnode]
  rfl

/-- The answer about an annotation of the view is kept. -/
theorem typeOfNode_kept {node : NodeId} {site : TypeSite}
    (hnode : index.typeSites[node.index]? = some site) (a : Arena) :
    ((typeOfNode index node).run a).2.nodes.lookup node =
      some ((typeOfNode index node).run a).1 := by
  rcases hlook : a.nodes.lookup node with _ | r
  · simp only [typeOfNode, StateT.run_bind, StateT.run_get, pure_bind, hlook, hnode]
    exact List.lookup_cons_self
  · rw [typeOfNode_known hlook]
    exact hlook

theorem memberType_known {m : MemberId} {r : Option TypeId} (h : a.memberTypes.lookup m = some r) :
    (memberType index m).run a = (r, a) := by
  simp only [memberType, StateT.run_bind, StateT.run_get, pure_bind, h]
  rfl

/-- The answer about a member of the arena is kept. -/
theorem memberType_kept {m : MemberId} (hm : a.HasMember m) :
    ((memberType index m).run a).2.memberTypes.lookup m = some ((memberType index m).run a).1 := by
  rcases hlook : a.memberTypes.lookup m with _ | r
  · have hdata : a.members[m.index]? = some a.members[m.index] := Array.getElem?_eq_getElem hm
    simp only [memberType, StateT.run_bind, StateT.run_get, pure_bind, hlook, hdata]
    exact List.lookup_cons_self
  · rw [memberType_known hlook]
    exact hlook

end Resolve

namespace Program

variable {program : Program}

theorem typeOf_again (program : Program) (node : TypeNode) (earlier later : List Query) :
    ((program.facts.typeOf node).run (program.after (earlier ++ .typeOf node :: later))).1 =
      ((program.facts.typeOf node).run (program.after earlier)).1 := by
  have hindex := program.index.scoped_true
  have hrest := atRest_after hindex earlier
  show ((Resolve.typeOfNode program.index node.id).run _).1 =
    ((Resolve.typeOfNode program.index node.id).run _).1
  rcases hsite : program.index.typeSites[node.id.index]? with _ | site
  -- Nothing is kept for a place that no annotation has.
  · have hlast := (atRest_after hindex (earlier ++ .typeOf node :: later)).sound
    rw [Resolve.typeOfNode_nowhere hlast hsite, Resolve.typeOfNode_nowhere hrest.sound hsite]
  · have hasked := hrest.turns hindex (Resolve.typeOfNode_turns hindex hrest.sound node.id).1
    have hretains := ((askAll_turns hindex hasked.sound later).moved hindex hasked.sound).retains
    have hkept := hretains.nodes (Resolve.typeOfNode_kept hsite (program.after earlier))
    have hknown : (Resolve.typeOfNode program.index node.id).run _ = _ :=
      Resolve.typeOfNode_known hkept
    have hagain := congrArg Prod.fst hknown
    rw [after_cons]
    exact hagain

theorem memberType_again (program : Program) (m : MemberId) (earlier later : List Query)
    (hm : (program.after earlier).HasMember m) :
    ((program.facts.memberType m).run (program.after (earlier ++ .memberType m :: later))).1 =
      ((program.facts.memberType m).run (program.after earlier)).1 := by
  have hindex := program.index.scoped_true
  have hrest := atRest_after hindex earlier
  have hasked := hrest.turns hindex (Resolve.memberType_turns hindex hrest.sound m).1
  have hretains := ((askAll_turns hindex hasked.sound later).moved hindex hasked.sound).retains
  have hkept := hretains.memberTypes (Resolve.memberType_kept hm)
  have hknown : (Resolve.memberType program.index m).run _ = _ := Resolve.memberType_known hkept
  have hagain := congrArg Prod.fst hknown
  rw [after_cons]
  exact hagain

end Program

/-! ## References -/

/-- On the way to an arena a reference to a declaration was followed, and answered. -/
inductive Told (index : Index) : Arena → DeclId → Option TypeId → Prop
  | follow {a a' : Arena} {scope : ScopeId} {type : TypeExpr} {m : Moment} :
      Turns index (fun _ => True) Arena.empty a → Occurs index scope type a m →
      Turns index (fun _ => True) ((Resolve.resolve index scope type).run a).2 a' →
      Told index a' m.decl (m.answer index)

/-- What references to a declaration that does not refer to itself were answered with is the answer
that the arena has for it. -/
theorem Told.answered {d : DeclId} {r : Option TypeId} (h : Told index a d r) {decl : TypeDecl}
    (hdecl : index.decls[d.index]? = some decl) (hcircle : ¬ TransGen index.Refers d d) :
    a.declared.lookup d = some (.done r) := by
  cases h with
  | @follow before _ scope type m hbefore hfollows hafter =>
    have hindex := index.scoped_true
    have hrest := (atRest_empty index fun _ => True).turns hindex hbefore
    have hresolved := hrest.turns hindex (.single (.resolve before scope type trivial))
    have hdone := hfollows.answered hindex.decls trivial hrest.sound hrest.idle
      hdecl hcircle
    exact (hafter.moved hindex hresolved.sound).retains.declared hdone

/-- Interfaces, classes and enums refer to nothing when they are resolved. -/
theorem Index.not_circular_of_not_alias {d : DeclId} {decl : TypeDecl}
    (hdecl : index.decls[d.index]? = some decl) (hkind : Program.isAlias decl = false) :
    ¬ TransGen index.Refers d d := by
  intro hcircle
  obtain ⟨e, ⟨scope, type, ⟨name, halias⟩, -⟩, -⟩ := TransGen.head'_iff.1 hcircle
  rw [hdecl] at halias
  obtain rfl := Option.some.inj halias
  cases hkind

/-! ## The result -/

/-- For every program and all sequences of queries. That a query has been answered, a type or a member
been there, is said of the arena after the earlier queries; the later ones may be any. -/
theorem Program.answers_stable (program : Program) (earlier later : List Query) :
    (∀ node : TypeNode,
      ((program.facts.typeOf node).run (program.after (earlier ++ .typeOf node :: later))).1 =
        ((program.facts.typeOf node).run (program.after earlier)).1) ∧
    (∀ m, (program.after earlier).HasMember m →
      ((program.facts.memberType m).run (program.after (earlier ++ .memberType m :: later))).1 =
        ((program.facts.memberType m).run (program.after earlier)).1) ∧
    (∀ t, (program.after earlier).HasType t →
      (program.after (earlier ++ later)).typeData t = (program.after earlier).typeData t) ∧
    (∀ m, (program.after earlier).HasMember m →
      (program.after (earlier ++ later)).memberData m = (program.after earlier).memberData m) ∧
    (∀ keyword t t', (program.after earlier).HasType t → (program.after earlier).HasType t' →
      ((program.after earlier).typeData t).intrinsic = some keyword →
      ((program.after earlier).typeData t').intrinsic = some keyword → t = t') ∧
    (∀ d decl, program.index.decls[d.index]? = some decl →
      (Program.isAlias decl = true → ¬ TransGen program.index.Refers d d) →
      ∀ r r', Told program.index (program.after earlier) d r →
        Told program.index (program.after (earlier ++ later)) d r' → r = r') ∧
    Turns program.index (fun _ => True) Arena.empty (program.after earlier) ∧
    ∀ d, (program.after earlier).declared.lookup d ≠ some .resolving := by
  have hindex := program.index.scoped_true
  have hrest := atRest_after hindex earlier
  have hretains := retains_after hindex earlier later
  refine ⟨fun node => program.typeOf_again node earlier later,
    fun m hm => program.memberType_again m earlier later hm, fun t ht => hretains.typeData ht,
    fun m hm => hretains.memberData hm, ?_, ?_, askAll_turns hindex (sound_empty _ _) earlier, ?_⟩
  · intro keyword t t' ht ht' hkeyword hkeyword'
    have hlook := hrest.accounts.keyword_lookup ht hkeyword
    have hlook' := hrest.accounts.keyword_lookup ht' hkeyword'
    exact Option.some.inj (hlook.symm.trans hlook')
  · intro d decl hdecl halias r r' htold htold'
    have hcircle : ¬ TransGen program.index.Refers d d := by
      rcases hkind : Program.isAlias decl with _ | _
      · exact Index.not_circular_of_not_alias hdecl hkind
      · exact halias hkind
    have hdone := hretains.declared (htold.answered hdecl hcircle)
    have hdone' := htold'.answered hdecl hcircle
    exact DeclState.done.inj (Option.some.inj (hdone.symm.trans hdone'))
  · exact fun d hway => nomatch (hrest.idle d).1 hway

end ComponentSchema
