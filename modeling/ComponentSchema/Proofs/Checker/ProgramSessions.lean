import ComponentSchema.Proofs.Binder.WellFormedIndex
import ComponentSchema.Proofs.Checker.StableAnswers
import ComponentSchema.Proofs.Comparison.RestatedDocuments

/-!
# Conversations with a program

Types and members are known by their places in the arena. A program that is asked only about types
and members that it has handed out is never asked about others than there are: what it hands out is in
its arena, and what is in its arena stays there. On the way, in the middle of an answer too, all types
and members that the arena mentions are in it, and members are read in scopes that there are.

Results.
* `Program.Session.inRange`: one answer after the other.
* `Modules.load_inRange`: for all files that can be loaded.
-/
namespace ComponentSchema

open Syntax Relation Arena

theorem Index.WellFormed.scoped_hasScope {index : Index} (h : index.WellFormed) :
    index.Scoped index.HasScope where
  decls decl hdecl := by
    obtain ⟨i, hi⟩ := Array.mem_iff_getElem?.1 hdecl
    exact (h.decls ⟨i⟩ decl hi).1
  typeSites := h.typeSites
  functionSites := h.functionSites

namespace Program

/-- A conversation with a program, which has handed out some types and members in it, and is asked
about those only. The questions that are left out make nothing and hand out nothing. -/
inductive Session (program : Program) : Arena → List TypeId → List MemberId → Prop
  | start : Session program Arena.empty [] []
  | returnType {a : Arena} {types : List TypeId} {members : List MemberId}
      (signature : FunctionLike) : Session program a types members →
      Session program ((program.facts.returnType signature).run a).2
        (((program.facts.returnType signature).run a).1.toList ++ types) members
  | typeOf {a : Arena} {types : List TypeId} {members : List MemberId} (node : TypeNode) :
      Session program a types members →
      Session program ((program.facts.typeOf node).run a).2
        (((program.facts.typeOf node).run a).1.toList ++ types) members
  | memberType {a : Arena} {types : List TypeId} {members : List MemberId} {member : MemberId} :
      member ∈ members → Session program a types members →
      Session program ((program.facts.memberType member).run a).2
        (((program.facts.memberType member).run a).1.toList ++ types) members
  | members {a : Arena} {types : List TypeId} {members : List MemberId} {type : TypeId} :
      type ∈ types → Session program a types members →
      Session program a types (((program.facts.members type).run a).1 ++ members)

/-- What a conversation has come to. -/
structure InRange (program : Program) (S : ScopeId → Prop) (a : Arena) (types : List TypeId)
    (members : List MemberId) : Prop where
  steps : Steps program.index S Arena.empty a
  types : ∀ t ∈ types, a.HasType t
  members : ∀ m ∈ members, a.HasMember m

variable {program : Program} {S : ScopeId → Prop} {a : Arena} {types : List TypeId}
  {members : List MemberId}

theorem InRange.sound (h : program.InRange S a types members) : Sound program.index S a :=
  (sound_empty _ S).steps h.steps

/-- An answer is handed out besides what has been handed out before. -/
theorem InRange.answer (hindex : program.index.Scoped S) (h : program.InRange S a types members)
    {question : Resolve (Option TypeId)}
    (hq : Runs (Turns program.index S) a question fun r a' => a'.HasAnswer r) :
    program.InRange S (question.run a).2 ((question.run a).1.toList ++ types) members := by
  have hmoved := hq.1.moved hindex h.sound
  refine ⟨h.steps.trans hmoved.steps, fun t ht => ?_, fun m hm =>
    hmoved.retains.hasMember (h.members m hm)⟩
  rcases List.mem_append.1 ht with hnew | hold
  · exact hq.2 t (Option.mem_toList.1 hnew)
  · exact hmoved.retains.hasType (h.types t hold)

theorem Session.inRange (hindex : program.index.Scoped S) (h : program.Session a types members) :
    program.InRange S a types members := by
  induction h with
  | start => exact ⟨.refl, by simp, by simp⟩
  | returnType signature _ ih =>
    exact ih.answer hindex (returnType_turns hindex ih.sound signature)
  | typeOf node _ ih =>
    exact ih.answer hindex (Resolve.typeOfNode_turns hindex ih.sound node.id)
  | memberType _ _ ih =>
    exact ih.answer hindex (Resolve.memberType_turns hindex ih.sound _)
  | @members a types members type htype _ ih =>
    refine ⟨ih.steps, ih.types, fun m hm => ?_⟩
    rcases List.mem_append.1 hm with hnew | hold
    · have hdata := Array.mem_of_getElem? (getElem?_types (ih.types type htype))
      exact (ih.sound.types _ hdata).has m hnew
    · exact ih.members m hold

end Program

/-- For all files that can be loaded: their index is well formed, no name is looked up behind the ends
of its arrays, and in whatever conversation all types and members that are in the arena or have been
handed out are in range, between the questions and while they are answered. -/
theorem Modules.load_inRange {tree : FileTree} {roots : List Path} {modules : Modules}
    (h : Modules.load tree roots = .ok modules) :
    modules.program.index.WellFormed ∧
    (∀ g ∈ modules.order, modules.program.index.HasModule g) ∧
    (∀ scopes moduleScopes x segments, modules.program.index.HasScope x →
      (modules.program.index.pad scopes moduleScopes).lookup x segments =
          modules.program.index.lookup x segments ∧
        ∀ d ∈ modules.program.index.lookup x segments,
          d.index < modules.program.index.decls.size) ∧
    (∀ a, Steps modules.program.index modules.program.index.HasScope Arena.empty a →
      Sound modules.program.index modules.program.index.HasScope a) ∧
    ∀ a types members, modules.program.Session a types members →
      Steps modules.program.index modules.program.index.HasScope Arena.empty a ∧
        (∀ t ∈ types, a.HasType t) ∧ ∀ m ∈ members, a.HasMember m := by
  have hwell : modules.program.index.WellFormed := bind_wellFormed (within_of_load h)
  refine ⟨hwell, ?_, fun scopes moduleScopes x segments hx => hwell.lookup_pad hx segments,
    fun a hsteps => (sound_empty _ _).steps hsteps, fun a types members hsession => ?_⟩
  · exact fun g hg => modules.bind_hasModule (lt_of_mem_order h hg)
  · have hrange := hsession.inRange hwell.scoped_hasScope
    exact ⟨hrange.steps, hrange.types, hrange.members⟩

/-- Two blocks of a namespace, which share a scope, and files that refer to each other. -/
def mergedTree : FileTree where
  entries := [
    (["a.ts"], .file ("import \x7b B \x7d from './b';\nnamespace N \x7b export type T = B \x7d\n" ++
      "namespace N \x7b interface I \x7b\x7d \x7d\n")),
    (["b.ts"], .file "export * from './a';\nexport interface B \x7b\x7d\n")]
  current := []

set_option maxRecDepth 100000 in
theorem sizes_mergedTree : (Modules.load mergedTree [⟨"a.ts"⟩]).toOption.map (fun modules =>
    (modules.order, modules.program.index.scopes.size, modules.program.index.decls.size)) =
      some ([⟨1⟩, ⟨0⟩], 4, 3) := by
  decide +kernel

/-- The global scope, one for each file, and one for the namespace. -/
theorem Modules.load_inRange_mergedTree : ∃ modules,
    Modules.load mergedTree [⟨"a.ts"⟩] = .ok modules ∧
      (modules.order, modules.program.index.scopes.size, modules.program.index.decls.size) =
        ([⟨1⟩, ⟨0⟩], 4, 3) ∧
      modules.program.index.WellFormed ∧
      ∀ g ∈ modules.order, modules.program.index.HasModule g := by
  obtain ⟨modules, hload, hsizes⟩ := Modules.exists_load sizes_mergedTree
  obtain ⟨hwell, hmodules, -, -, -⟩ := Modules.load_inRange hload
  exact ⟨modules, hload, hsizes, hwell, hmodules⟩

end ComponentSchema
