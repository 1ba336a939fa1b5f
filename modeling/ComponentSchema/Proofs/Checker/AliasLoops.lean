import ComponentSchema.Proofs.Checker.QueryHistories
import ComponentSchema.Proofs.Checker.ResolutionDepth
import ComponentSchema.Proofs.Checker.StableAnswers
import ComponentSchema.Proofs.ReturnInference.InferenceSteps

/-!
# Loops of aliases

An alias of a mere name passes on what another declaration denotes (`Index.Passes`): its right-hand
side is the name, in parentheses perhaps, or a union of which nothing else is left when `null` and
`undefined` are dropped. Each such alias passes on from one declaration only, so an alias that leads
to a loop of them leads nowhere else (`Index.Lost`).

No program gives such an alias a type, wherever the loop is entered and whatever was asked before.
The types of members need an argument of their own: a member may have been asked for its type while
the type it is of has no name, and the answer is kept (`Forlorn`).

Results.
* `Lost.untangled`, `Lost.denotes_nothing`: what a loop denotes does not depend on the way into it,
  and is nothing.
* `Program.loops_resolve_to_nothing`: resolutions end, and those that lead to a loop end with no type.
-/
namespace ComponentSchema

open Syntax Relation Arena

/-! ## Mere names -/

/-- A mere name is one name. -/
theorem names_of_isName (type : TypeExpr) (h : type.isName = true) :
    ∃ segments, type.names = [segments] := by
  induction type using TypeExpr.resolutionRec with
  | parenthesized inner ih =>
    rw [TypeExpr.isName] at h
    rw [TypeExpr.names]
    exact ih h
  | reference name => exact ⟨name.segments, by rw [TypeExpr.names]⟩
  | single parts part hsingle ih =>
    rw [TypeExpr.isName_single hsingle] at h
    rw [TypeExpr.names_single hsingle]
    exact ih h
  | several parts hseveral =>
    rw [TypeExpr.isName_several hseveral] at h
    cases h
  | keyword | literal | intersection | function | constructor | other => simp [TypeExpr.isName] at h

namespace Index

variable {index : Index} {d e f : DeclId} {scope scope' : ScopeId} {type type' : TypeExpr}

theorem Mentions.unique (hname : type.isName = true) (hd : index.Mentions scope type.names d)
    (he : index.Mentions scope type.names e) : d = e := by
  obtain ⟨only, honly⟩ := names_of_isName type hname
  obtain ⟨segments, hs, hd⟩ := hd
  obtain ⟨segments', hs', he⟩ := he
  rw [honly, List.mem_singleton] at hs hs'
  rw [hs] at hd
  rw [hs', hd] at he
  exact Option.some.inj he

theorem IsAlias.unique (h : index.IsAlias d scope type) (h' : index.IsAlias d scope' type') :
    scope = scope' ∧ type = type' := by
  obtain ⟨name, hdecl⟩ := h
  obtain ⟨name', hdecl'⟩ := h'
  obtain ⟨-, rfl, hkind⟩ := TypeDecl.mk.inj (Option.some.inj (hdecl.symm.trans hdecl'))
  exact ⟨rfl, TypeDeclKind.typeAlias.inj hkind⟩

/-! ## Loops -/

/-- An alias of a mere name passes on what another declaration denotes. -/
def Passes (index : Index) (d e : DeclId) : Prop :=
  ∃ scope type, index.IsAlias d scope type ∧ type.isName = true ∧ index.Mentions scope type.names e

/-- An alias of a mere name is on a loop of such aliases, or leads to one through such aliases. -/
def Lost (index : Index) (d : DeclId) : Prop :=
  ∃ e, ReflTransGen index.Passes d e ∧ TransGen index.Passes e e

/-- A mere name that leads to a loop. -/
def Astray (index : Index) (scope : ScopeId) (type : TypeExpr) : Prop :=
  type.isName = true ∧ ∃ d, index.Mentions scope type.names d ∧ index.Lost d

theorem Lost.passes (h : index.Lost d) : ∃ e, index.Passes d e ∧ index.Lost e := by
  obtain ⟨e, hto, hloop⟩ := h
  rcases hto.cases_head with rfl | ⟨f, hstep, hrest⟩
  · obtain ⟨f, hstep, hback⟩ := TransGen.head'_iff.1 hloop
    exact ⟨f, hstep, d, hback, hloop⟩
  · exact ⟨f, hstep, e, hrest, hloop⟩

/-- A lost alias is an alias of a mere name, and that name is all it refers to. -/
theorem Lost.rightSide (h : index.Lost d) (ha : index.IsAlias d scope type) :
    index.Astray scope type := by
  obtain ⟨e, ⟨scope', type', ha', hname, hm⟩, he⟩ := h.passes
  obtain ⟨rfl, rfl⟩ := ha'.unique ha
  exact ⟨hname, e, hm, he⟩

theorem Astray.lost (h : index.Astray scope type) (hm : index.Mentions scope type.names d) :
    index.Lost d := by
  obtain ⟨hname, e, he, hlost⟩ := h
  rwa [Mentions.unique hname hm he]

theorem Lost.of_refers (h : index.Lost d) (hr : ReflTransGen index.Refers d e) : index.Lost e := by
  induction hr with
  | refl => exact h
  | tail _ hstep ih =>
    obtain ⟨scope, type, ha, hm⟩ := hstep
    exact (ih.rightSide ha).lost hm

/-- Nothing on the way of a lost alias is an alias of more than a name. -/
theorem Lost.untangled (h : index.Lost d) : index.Untangled d := by
  rintro e he ⟨scope, type, ha, hname, -⟩
  have hmere := ((h.of_refers he).rightSide ha).1
  rw [hname] at hmere
  cases hmere

theorem Astray.untangledNames (h : index.Astray scope type) :
    index.UntangledNames scope type.names :=
  fun _ hm => (h.lost hm).untangled

/-! ## What they denote -/

/-- However far it is followed, a lost alias leads to another one. -/
theorem Lost.unfold (h : index.Lost d) (depth : Nat) (opened : List DeclId) :
    unfoldDecl index depth opened d = none := by
  induction depth generalizing d opened with
  | zero => rfl
  | succ depth ih =>
    rw [unfoldDecl]
    split
    · rfl
    · obtain ⟨e, ⟨scope, type, ⟨name, halias⟩, hname, hm⟩, he⟩ := h.passes
      simp only [halias, declOutline]
      rw [outlineOf_isName hname hm]
      exact ih he _

theorem Lost.denotes_nothing (h : index.Lost d) : declMeaning index d = none :=
  h.unfold _ _

theorem Astray.denotes_nothing (h : index.Astray scope type) (own : TypeOrigin)
    (aliasName : Option String) :
    outlineOf index (declMeaning index) own scope aliasName type = none := by
  obtain ⟨hname, d, hm, hlost⟩ := h
  rw [outlineOf_isName hname hm, hlost.denotes_nothing]

end Index

/-! ## What they are resolved to -/

variable {index : Index} {a : Arena} {w : Naming} {scope : ScopeId} {type : TypeExpr} {d : DeclId}

theorem Stands.eq_none {r : Option TypeId} {v : Option Outline} (h : Stands a w r v) (hv : v = none) :
    r = none := by
  subst hv
  cases h
  rfl

namespace Resolve

theorem declared_lost (h : Ready index a w) (hd : index.Lost d) :
    ((declared index d).run a).1 = none := by
  obtain ⟨w', -, hstands⟩ := declared_resolves index d h.faithful h.idle
  exact (hstands hd.untangled).eq_none hd.denotes_nothing

theorem resolve_astray (h : Ready index a w) (ht : index.Astray scope type) :
    ((resolve index scope type).run a).1 = none := by
  obtain ⟨w', -, hstands⟩ := resolve_yields .jsxElement h.faithful h.idle scope type
  exact (hstands ht.untangledNames).eq_none (ht.denotes_nothing _ _)

theorem typeOfNode_astray (h : Ready index a w) {node : NodeId} {site : TypeSite}
    (hsite : index.typeSites[node.index]? = some site) (ht : index.Astray site.scope site.type) :
    ((typeOfNode index node).run a).1 = none := by
  obtain ⟨w', -, -, hstands⟩ := typeOfNode_serves h node
  have huntangled : (TypeOrigin.site node).Untangled index := fun site' hsite' => by
    obtain rfl := Option.some.inj (hsite.symm.trans hsite')
    exact ht.untangledNames
  refine (hstands huntangled).eq_none ?_
  rw [meaning, hsite]
  exact ht.denotes_nothing _ _

end Resolve

/-! ## Members -/

/-- What holds of an arena at any time: if a member's annotation leads to a loop, the answer that is
kept about it is that there is no type. -/
structure Forlorn (index : Index) (a : Arena) : Prop where
  ready : ∃ w, Ready index a w
  sound : Sound index (fun _ => True) a
  kept : ∀ m data type r, a.members[m.index]? = some data → data.type = .written type →
    index.Astray data.scope type → a.memberTypes.lookup m = some r → r = none

theorem forlorn_empty (index : Index) : Forlorn index Arena.empty :=
  ⟨⟨_, ready_empty index⟩, sound_empty index _, fun _ _ _ _ _ _ _ h => by simp [Arena.empty] at h⟩

/-- Answers about members are left as they are, and so are the members. -/
theorem Forlorn.resolved {a' : Arena} (h : Forlorn index a) (hready : ∃ w', Ready index a' w')
    (hr : Resolved index (fun _ => True) a a') : Forlorn index a' := by
  refine ⟨hready, h.sound.steps hr.steps, fun m data type r hdata htype ht hlook => ?_⟩
  rw [hr.memberTypes] at hlook
  have hm := (h.sound.memberTypes _ (mem_of_lookup hlook)).1
  rw [hr.retains.members _ hm] at hdata
  exact h.kept m data type r hdata htype ht hlook

/-- The relation between an arena and a later one that `Forlorn` is kept. -/
def KeepsForlorn (index : Index) (a a' : Arena) : Prop := Forlorn index a → Forlorn index a'

instance : Std.Refl (KeepsForlorn index) := ⟨fun _ h => h⟩

instance : IsTrans Arena (KeepsForlorn index) := ⟨fun _ _ _ h h' hf => h' (h hf)⟩

namespace Resolve

theorem resolve_forlorn (scope : ScopeId) (type : TypeExpr) (a : Arena) :
    KeepsForlorn index a ((resolve index scope type).run a).2 := by
  intro h
  obtain ⟨w, hw⟩ := h.ready
  obtain ⟨w', -, hready, -⟩ := (resolve_yields .jsxElement hw.faithful hw.idle scope type).serves hw
  exact h.resolved ⟨w', hready⟩ (resolve_runs index.scoped_true.decls h.sound trivial type).1

theorem returnTypeOf_forlorn (function : FunctionId) (a : Arena) :
    KeepsForlorn index a ((returnTypeOf index function).run a).2 := by
  have halong : ∀ scope, Along index (KeepsForlorn index) scope fun _ => True := fun scope =>
    ⟨fun type _ a => resolve_forlorn scope type a, fun _ => trivial, trivial⟩
  exact (returnTypeOf_along (P := fun _ _ => True)
    fun site _ => ⟨halong site.scope, fun _ _ _ _ => trivial⟩).1

theorem typeOfNode_forlorn (node : NodeId) (a : Arena) :
    KeepsForlorn index a ((typeOfNode index node).run a).2 := by
  intro h
  obtain ⟨w, hw⟩ := h.ready
  obtain ⟨w', -, hready, -⟩ := typeOfNode_serves hw node
  have hturns := (typeOfNode_turns index.scoped_true h.sound node).1
  refine ⟨⟨w', hready⟩, hturns.sound index.scoped_true h.sound, ?_⟩
  rcases hlook : a.nodes.lookup node with _ | r
  · rcases hsite : index.typeSites[node.index]? with _ | site
    · rw [typeOfNode_nowhere h.sound hsite]
      exact h.kept
    · simp only [typeOfNode, StateT.run_bind, StateT.run_get, pure_bind, hlook, hsite]
      exact (resolve_forlorn site.scope site.type a h).kept
  · rw [typeOfNode_known hlook]
    exact h.kept

theorem memberType_nowhere (h : Sound index (fun _ => True) a) {m : MemberId}
    (hm : ¬ a.HasMember m) : (memberType index m).run a = (none, a) := by
  have hdata : a.members[m.index]? = none := Array.getElem?_eq_none (Nat.le_of_not_lt hm)
  have hlook : a.memberTypes.lookup m = none := by
    rcases hlook : a.memberTypes.lookup m with _ | r
    · rfl
    · exact absurd (h.memberTypes _ (mem_of_lookup hlook)).1 hm
  simp only [memberType, StateT.run_bind, StateT.run_get, pure_bind, hlook, hdata]
  rfl

/-- A member whose annotation leads to a loop has no type, whether it is asked for the first time or
again. -/
theorem memberType_astray (h : Forlorn index a) {m : MemberId} {data : MemberData}
    (hdata : a.members[m.index]? = some data) (htype : data.type = .written type)
    (ht : index.Astray data.scope type) : ((memberType index m).run a).1 = none := by
  obtain ⟨w, hw⟩ := h.ready
  rcases hlook : a.memberTypes.lookup m with _ | r
  · simp only [memberType, StateT.run_bind, StateT.run_get, pure_bind, hlook, hdata]
    have hnone := resolve_astray hw ht
    rw [typeOfMember, htype]
    exact hnone
  · rw [memberType_known hlook]
    exact h.kept m data type r hdata htype ht hlook

/-- Only the answer about the member that is asked about may be new. -/
theorem memberType_kept_other (h : Sound index (fun _ => True) a) {m m' : MemberId} (hne : m' ≠ m) :
    ((memberType index m).run a).2.memberTypes.lookup m' = a.memberTypes.lookup m' := by
  rcases hlook : a.memberTypes.lookup m with _ | r
  · rcases hdata : a.members[m.index]? with _ | data
    · simp only [memberType, StateT.run_bind, StateT.run_get, pure_bind, hlook, hdata]
      rfl
    · have hresolved : Resolved index (fun _ => True) a ((typeOfMember index data).run a).2 :=
        (typeOfMember_turns index.scoped_true h trivial).2
      simp only [memberType, StateT.run_bind, StateT.run_get, pure_bind, hlook, hdata]
      exact (lookup_cons_of_ne hne).trans (congrArg (List.lookup m') hresolved.memberTypes)
  · rw [memberType_known hlook]

theorem memberType_forlorn (m : MemberId) (a : Arena) :
    KeepsForlorn index a ((memberType index m).run a).2 := by
  intro h
  obtain ⟨w, hw⟩ := h.ready
  obtain ⟨w', -, hready, -⟩ := memberType_serves hw m
  have hturns := (memberType_turns index.scoped_true h.sound m).1
  have hsound := hturns.sound index.scoped_true h.sound
  have hretains := (hturns.moved index.scoped_true h.sound).retains
  refine ⟨⟨w', hready⟩, hsound, fun m' data type r hdata htype ht hlook => ?_⟩
  by_cases hne : m' = m
  · subst hne
    by_cases hm : a.HasMember m'
    · rw [hretains.members _ hm] at hdata
      rw [memberType_kept hm] at hlook
      rw [← Option.some.inj hlook]
      exact memberType_astray h hdata htype ht
    · rw [memberType_nowhere h.sound hm] at hlook
      exact absurd (h.sound.memberTypes _ (mem_of_lookup hlook)).1 hm
  · rw [memberType_kept_other h.sound hne] at hlook
    rw [hretains.members _ (h.sound.memberTypes _ (mem_of_lookup hlook)).1] at hdata
    exact h.kept m' data type r hdata htype ht hlook

end Resolve

namespace Program

variable {program : Program}

theorem ask_forlorn (query : Query) (a : Arena) :
    KeepsForlorn program.index a ((program.facts.ask query).run a).2 := by
  cases query with
  | returnType signature =>
    obtain ⟨id, parameters, _ | node⟩ := signature
    · exact Resolve.returnTypeOf_forlorn id a
    · exact Resolve.typeOfNode_forlorn node.id a
  | typeOf node => exact Resolve.typeOfNode_forlorn node.id a
  | memberType member => exact Resolve.memberType_forlorn member a
  | symbol | aliasName | intrinsicName | members | memberName | memberOptional => exact id

theorem askAll_forlorn (queries : List Query) (a : Arena) :
    KeepsForlorn program.index a ((queries.forM program.facts.ask).run a).2 := by
  induction queries generalizing a with
  | nil => exact id
  | cons query rest ih => exact fun h => ih _ (ask_forlorn query a h)

theorem forlorn_after (program : Program) (queries : List Query) :
    Forlorn program.index (program.after queries) :=
  askAll_forlorn queries Arena.empty (forlorn_empty program.index)

/-! ## The result -/

/-- For every program. Enough attempts at the resolution of declarations resolve every type
expression, in every arena that is reached, whatever the first attempt does. And after whatever
queries: an alias that leads to a loop of aliases has no type, nor has any annotation, of the view or
of a member, that is a mere name of such an alias. -/
theorem loops_resolve_to_nothing (program : Program) :
    (∀ attempt, Resolve.Nests program.index attempt → ∀ n, program.index.decls.size < n →
      ∀ a, a.Reached program.index → ∀ scope aliasName type,
        (Resolve.resolveWith program.index (attempt n) scope aliasName type).run a =
          (Resolve.resolveWith program.index (Resolve.declared program.index) scope aliasName
            type).run a) ∧
    ∀ queries : List Query, (program.after queries).Reached program.index ∧
      (∀ d, program.index.Lost d →
        ((Resolve.declared program.index d).run (program.after queries)).1 = none) ∧
      (∀ scope type, program.index.Astray scope type →
        ((Resolve.resolve program.index scope type).run (program.after queries)).1 = none) ∧
      (∀ (node : TypeNode) site, program.index.typeSites[node.id.index]? = some site →
        program.index.Astray site.scope site.type →
          ((program.facts.typeOf node).run (program.after queries)).1 = none) ∧
      ∀ m data type, (program.after queries).members[m.index]? = some data →
        data.type = .written type → program.index.Astray data.scope type →
          ((program.facts.memberType m).run (program.after queries)).1 = none := by
  refine ⟨fun attempt hnests n hn a ha scope aliasName type => ?_, fun queries => ?_⟩
  · refine Resolve.resolveWith_congr (Resolve.resolveDecl_runs program.index.scoped_true.decls _)
      aliasName type ha.sound fun b d hsteps => ?_
    exact hnests.declared hn (ha.steps hsteps) d
  · have h := program.forlorn_after queries
    obtain ⟨w, hw⟩ := h.ready
    have hturns := askAll_turns program.index.scoped_true (sound_empty program.index _) queries
    have hmoved := hturns.moved program.index.scoped_true (sound_empty program.index _)
    exact ⟨hmoved.steps, fun d hd => Resolve.declared_lost hw hd,
      fun scope type ht => Resolve.resolve_astray hw ht,
      fun node site hsite ht => Resolve.typeOfNode_astray hw hsite ht,
      fun m data type hdata htype ht => Resolve.memberType_astray h hdata htype ht⟩

end Program

/-- `type A = B | null; type B = (A); type C = B`, and an annotation with the last name. -/
def loopProgram : Program where
  files := []
  index := { Index.empty with
    scopes := #[{ Scope.empty none none with types := [("A", ⟨0⟩), ("B", ⟨1⟩), ("C", ⟨2⟩)] }]
    decls := #[
      ⟨"A", globalScope, .typeAlias (.union [.reference (.ident "B"), .keyword .null])⟩,
      ⟨"B", globalScope, .typeAlias (.parenthesized (.reference (.ident "A")))⟩,
      ⟨"C", globalScope, .typeAlias (.reference (.ident "B"))⟩]
    typeSites := #[⟨globalScope, .reference (.ident "C")⟩, ⟨globalScope, .reference (.ident "A")⟩] }

theorem passes_loopProgram : loopProgram.index.Passes ⟨0⟩ ⟨1⟩ ∧ loopProgram.index.Passes ⟨1⟩ ⟨0⟩ ∧
    loopProgram.index.Passes ⟨2⟩ ⟨1⟩ :=
  ⟨⟨globalScope, _, ⟨"A", rfl⟩, by decide, ["B"], by decide, by decide⟩,
    ⟨globalScope, _, ⟨"B", rfl⟩, by decide, ["A"], by decide, by decide⟩,
    ⟨globalScope, _, ⟨"C", rfl⟩, by decide, ["B"], by decide, by decide⟩⟩

theorem astray_loopProgram : loopProgram.index.Astray globalScope (.reference (.ident "C")) := by
  obtain ⟨hab, hba, hcb⟩ := passes_loopProgram
  exact ⟨by decide, ⟨2⟩, ⟨["C"], by decide, by decide⟩, ⟨1⟩, .single hcb, .head hba (.single hab)⟩

/-- The alias before the loop has no type, when one on the loop was asked for first. -/
theorem Program.loops_resolve_to_nothing_loopProgram :
    loopProgram.index.Astray globalScope (.reference (.ident "C")) ∧
    ((loopProgram.facts.typeOf ⟨⟨0⟩, .reference (.ident "C")⟩).run
      (loopProgram.after [.typeOf ⟨⟨1⟩, .reference (.ident "A")⟩])).1 = none := by
  obtain ⟨-, hloops⟩ := loopProgram.loops_resolve_to_nothing
  obtain ⟨-, -, -, hnode, -⟩ := hloops [.typeOf ⟨⟨1⟩, .reference (.ident "A")⟩]
  exact ⟨astray_loopProgram, hnode ⟨⟨0⟩, .reference (.ident "C")⟩ _ rfl astray_loopProgram⟩

end ComponentSchema
