import ComponentSchema.Proofs.Traversal.Termination
import Mathlib.Data.List.Induction

/-!
# Calls on one extractor

An extractor is asked for one schema after the other, by `extract` and by `extractInto` in any mix,
and what the calls append goes to one list of schemas.

`extract` appends the types below a type without the type itself. So after such a call an appended
type may lead to one that was not appended and is on no path any more: `Tidy` is lost, and with it
the description of what is appended in terms of expansions. What stays is `Orderly`: names are
remembered right, and no type was appended twice. It is enough, because the properties of a schema do
not depend on what is appended on the way.

Termination is stated without a bound on the descent. Attempts at expansion, each of which takes one
step and leaves nested types to the one before (`TypeFacts.Attempts`), all come to the same as soon as
there are more of them than types with alias names.

Results.
* `expand_appends`: an expansion appends schemas of types that are not on the path, in `dedupe` mode
  of types not appended before.
* `Attempts.agrees`: enough attempts expand types as `expand` does.
* `calls_append`: every call in a sequence of calls.
-/
namespace ComponentSchema

/-- A call on an extractor. -/
inductive Call where
  | extract (type : TypeId)
  | extractInto (type : TypeId)
  deriving DecidableEq, Repr

/-- What a call answers: a schema, or the name of one. -/
inductive Reply where
  | schema (schema : Schema)
  | name (name : String)
  deriving DecidableEq, Repr

/-- An extractor and the schemas that were appended through it. -/
structure Usage where
  extractor : Extractor
  types : List Schema

namespace TypeFacts

/-! ## Calls -/

section

variable {m : Type → Type} [Monad m] (facts : TypeFacts m) (mode : SchemaMode)

/-- A call, with any way to expand types. -/
def callWith (expand : TypeId → Extractor → m (Extracted Unit)) (extractor : Extractor) :
    Call → m (Extracted Reply)
  | .extract type => do
    let found ← facts.schemaOf expand type extractor
    pure ⟨.schema found.answer, found.added, found.extractor⟩
  | .extractInto type => do
    let found ← facts.extractIntoWith mode expand type extractor
    pure ⟨.name found.answer, found.added, found.extractor⟩

/-- A call. -/
def call (extractor : Extractor) : Call → m (Extracted Reply)
  | .extract type => do
    let found ← facts.extract mode type extractor
    pure ⟨.schema found.answer, found.added, found.extractor⟩
  | .extractInto type => do
    let found ← facts.extractInto mode type extractor
    pure ⟨.name found.answer, found.added, found.extractor⟩

theorem call_eq_callWith (extractor : Extractor) (call : Call) :
    facts.call mode extractor call =
      facts.callWith mode (facts.expand mode facts.aliasBound) extractor call := by
  cases call <;> rfl

end

variable (facts : TypeFacts Id) (mode : SchemaMode)

/-- One call more; what it appends goes behind the schemas that are there. -/
def proceed (usage : Usage) (call : Call) : Usage :=
  let found := (facts.call mode usage.extractor call).run
  ⟨found.extractor, usage.types ++ found.added⟩

/-- What an extractor and its schemas have become after calls, one after the other. -/
def afterCalls (calls : List Call) : Usage :=
  calls.foldl (facts.proceed mode) ⟨Extractor.fresh, []⟩

variable {facts mode} {extractor : Extractor} {path : List TypeId} {α β : Type}

theorem afterCalls_concat (calls : List Call) (call : Call) :
    facts.afterCalls mode (calls ++ [call]) = facts.proceed mode (facts.afterCalls mode calls) call := by
  simp [afterCalls]

/-! ## What is appended -/

/-- What holds of an extractor at any time. -/
structure Orderly (facts : TypeFacts Id) (mode : SchemaMode) (extractor : Extractor) : Prop where
  named : ∀ entry ∈ extractor.emitted, entry.2 = (facts.schemaName entry.1).run
  nodup : extractor.done.Nodup
  repeated : mode = .repeated → extractor.emitted = []

theorem Orderly.fresh (facts : TypeFacts Id) (mode : SchemaMode) :
    facts.Orderly mode Extractor.fresh :=
  ⟨(fun _ h => by cases h), List.nodup_nil, fun _ => rfl⟩

theorem Orderly.enter (h : facts.Orderly mode extractor) (type : TypeId) :
    facts.Orderly mode (extractor.enter type) :=
  ⟨h.named, h.nodup, h.repeated⟩

/-- The schemas of `types` were appended. None of the types is on the path, and in `dedupe` mode none
is among those appended before or comes twice. -/
structure Appends (facts : TypeFacts Id) (mode : SchemaMode) (extractor : Extractor)
    (types : List TypeId) (found : Extracted α) : Prop where
  added : found.added = types.map facts.ownSchema
  after : found.extractor = facts.noted mode extractor types
  outside : ∀ type ∈ types, type ∉ extractor.expanding
  once : mode = .dedupe → (types.reverse ++ extractor.done).Nodup

theorem Appends.nothing (h : facts.Orderly mode extractor) (answer : α) :
    facts.Appends mode extractor [] ⟨answer, [], extractor⟩ :=
  ⟨rfl, rfl, (fun _ h => by cases h), fun _ => h.nodup⟩

theorem Appends.expanding {types : List TypeId} {found : Extracted α}
    (h : facts.Appends mode extractor types found) :
    found.extractor.expanding = extractor.expanding := by
  rw [h.after, noted_expanding]

theorem Appends.orderly {types : List TypeId} {found : Extracted α} (ho : facts.Orderly mode extractor)
    (h : facts.Appends mode extractor types found) : facts.Orderly mode found.extractor := by
  rw [h.after]
  refine ⟨noted_named types ho.named, ?_, fun hmode => ?_⟩
  · cases mode with
    | repeated =>
      rw [noted_repeated]
      exact ho.nodup
    | dedupe =>
      rw [noted_done_dedupe]
      exact h.once rfl
  · subst hmode
    rw [noted_repeated]
    exact ho.repeated rfl

theorem Appends.answering {types : List TypeId} {found : Extracted α}
    (h : facts.Appends mode extractor types found) (answer : β) :
    facts.Appends mode extractor types ⟨answer, found.added, found.extractor⟩ :=
  ⟨h.added, h.after, h.outside, h.once⟩

/-- One after the other. -/
theorem Appends.then {types types' : List TypeId} {first : Extracted α} {second : Extracted β}
    (h : facts.Appends mode extractor types first)
    (h' : facts.Appends mode first.extractor types' second) {γ : Type} (answer : γ) :
    facts.Appends mode extractor (types ++ types')
      ⟨answer, first.added ++ second.added, second.extractor⟩ := by
  refine ⟨?_, ?_, fun type ht => ?_, fun hmode => ?_⟩
  · rw [h.added, h'.added, List.map_append]
  · rw [noted_append, ← h.after]
    exact h'.after
  · rcases List.mem_append.1 ht with ht | ht
    · exact h.outside type ht
    · rw [← h.expanding]
      exact h'.outside type ht
  · subst hmode
    have hnodup := h'.once rfl
    rwa [h.after, noted_done_dedupe, ← List.append_assoc, ← List.reverse_append] at hnodup

/-- What is expanded below a path is appended. -/
def Appending (facts : TypeFacts Id) (mode : SchemaMode) (path : List TypeId)
    (expand : TypeId → Extractor → Id (Extracted Unit)) : Prop :=
  ∀ type extractor, facts.Orderly mode extractor → extractor.expanding = path →
    ∃ types, facts.Appends mode extractor types (expand type extractor)

variable {expand expand' : TypeId → Extractor → Id (Extracted Unit)}

theorem property_appends (he : facts.Appending mode path expand) (member : MemberId)
    (ho : facts.Orderly mode extractor) (hp : extractor.expanding = path) :
    (facts.property expand member extractor).answer = facts.ownProperty member ∧
      ∃ types, facts.Appends mode extractor types (facts.property expand member extractor) := by
  simp only [property, ownProperty, Id.run, bind, pure]
  rcases facts.memberType member with _ | type
  · exact ⟨rfl, [], .nothing ho _⟩
  · rcases ha : facts.aliasName type with _ | name
    · exact ⟨by simp [ha], [], by simpa only [ha] using .nothing ho _⟩
    · obtain ⟨types, happends⟩ := he type extractor ho hp
      exact ⟨by simp [ha], types, by simpa only [ha] using happends.answering _⟩

theorem properties_appends (he : facts.Appending mode path expand) (members : List MemberId)
    (ho : facts.Orderly mode extractor) (hp : extractor.expanding = path) :
    (facts.properties expand members extractor).answer = members.map facts.ownProperty ∧
      ∃ types, facts.Appends mode extractor types (facts.properties expand members extractor) := by
  induction members generalizing extractor with
  | nil => exact ⟨rfl, [], .nothing ho _⟩
  | cons member rest ih =>
    obtain ⟨hanswer, types, hfirst⟩ := property_appends he member ho hp
    obtain ⟨hanswers, types', hothers⟩ := ih (hfirst.orderly ho) (hfirst.expanding.trans hp)
    refine ⟨?_, types ++ types', hfirst.then hothers _⟩
    rw [List.map_cons, ← hanswer, ← hanswers]
    rfl

/-- A schema is the type's own, and the type itself is not appended. -/
theorem schemaOf_appends {type : TypeId}
    (he : facts.Appending mode (type :: extractor.expanding) expand)
    (ho : facts.Orderly mode extractor) :
    (facts.schemaOf expand type extractor).answer = facts.ownSchema type ∧
      ∃ types, type ∉ types ∧
        facts.Appends mode extractor types (facts.schemaOf expand type extractor) := by
  obtain ⟨hanswer, types, happends⟩ :=
    properties_appends he (facts.members type).run (ho.enter type) rfl
  refine ⟨?_, types, fun ht => happends.outside type ht List.mem_cons_self, happends.added, ?_,
    fun other hother hx => happends.outside other hother (List.mem_cons_of_mem _ hx), happends.once⟩
  · rw [ownSchema, ← hanswer]
    rfl
  · have hleave : (facts.schemaOf expand type extractor).extractor =
        (facts.properties expand (facts.members type).run (extractor.enter type)).extractor.leave
          type := rfl
    rw [hleave, happends.after, noted_enter, Extractor.leave_enter]

/-- A type that is not on the path and was not appended is appended behind those below it. -/
theorem schemaOf_recorded_appends {type : TypeId}
    (he : facts.Appending mode (type :: extractor.expanding) expand)
    (ho : facts.Orderly mode extractor) (hp : type ∉ extractor.expanding)
    (hd : type ∉ extractor.done) (answer : α) :
    ∃ types, facts.Appends mode extractor types (⟨answer,
      (facts.schemaOf expand type extractor).added ++ [(facts.schemaOf expand type extractor).answer],
      (facts.schemaOf expand type extractor).extractor.record mode type
        (facts.schemaOf expand type extractor).answer.name⟩ : Extracted α) := by
  obtain ⟨hanswer, types, hnew, happends⟩ := schemaOf_appends he ho
  have hself : facts.Appends mode (facts.schemaOf expand type extractor).extractor [type]
      ⟨(), [facts.ownSchema type], (facts.schemaOf expand type extractor).extractor.record mode type
        (facts.ownSchema type).name⟩ := by
    refine ⟨rfl, rfl, fun other hother => ?_, fun hmode => ?_⟩
    · rw [List.mem_singleton.1 hother, happends.expanding]
      exact hp
    · subst hmode
      have hfar : type ∉ types.reverse ++ extractor.done := by simp [hnew, hd]
      rw [happends.after, noted_done_dedupe]
      exact List.nodup_cons.2 ⟨hfar, happends.once rfl⟩
  rw [hanswer]
  exact ⟨types ++ [type], happends.then hself answer⟩

theorem expand_appends (facts : TypeFacts Id) (mode : SchemaMode) (depth : Nat)
    (path : List TypeId) : facts.Appending mode path (facts.expand mode depth) := by
  induction depth generalizing path with
  | zero => exact fun type extractor ho _ => ⟨[], .nothing ho _⟩
  | succ depth ih =>
    intro type extractor ho hp
    by_cases hstop : (type ∈ extractor.expanding || (extractor.emittedName? type).isSome) = true
    · exact ⟨[], by simpa only [expand, if_pos hstop] using .nothing ho _⟩
    · simp only [Bool.or_eq_true, decide_eq_true_eq, Extractor.isSome_emittedName?, not_or] at hstop
      have hnone : (type ∈ extractor.expanding || (extractor.emittedName? type).isSome) ≠ true := by
        simpa [Extractor.isSome_emittedName?] using hstop
      rw [expand, if_neg hnone]
      exact schemaOf_recorded_appends (ih _) ho hstop.1 hstop.2 ()

/-! ## Termination -/

/-- The two expand types with alias names alike below a path. -/
def Agree (facts : TypeFacts Id) (mode : SchemaMode) (path : List TypeId)
    (expand expand' : TypeId → Extractor → Id (Extracted Unit)) : Prop :=
  ∀ type extractor, facts.IsAliased type → facts.Orderly mode extractor →
    extractor.expanding = path → expand type extractor = expand' type extractor

theorem property_agree (hagree : facts.Agree mode path expand expand') (member : MemberId)
    (ho : facts.Orderly mode extractor) (hp : extractor.expanding = path) :
    facts.property expand member extractor = facts.property expand' member extractor := by
  simp only [property, bind, pure]
  rcases facts.memberType member with _ | type
  · rfl
  · rcases ha : facts.aliasName type with _ | name
    · simp only [ha]
    · have halias : facts.IsAliased type := by simp [IsAliased, ha, Id.run]
      simp only [ha, hagree type extractor halias ho hp]

theorem properties_agree (hagree : facts.Agree mode path expand expand')
    (he : facts.Appending mode path expand') (members : List MemberId)
    (ho : facts.Orderly mode extractor) (hp : extractor.expanding = path) :
    facts.properties expand members extractor = facts.properties expand' members extractor := by
  induction members generalizing extractor with
  | nil => rfl
  | cons member rest ih =>
    obtain ⟨-, types, hfirst⟩ := property_appends he member ho hp
    have hrest := ih (hfirst.orderly ho) (hfirst.expanding.trans hp)
    simp only [properties, bind, pure, property_agree hagree member ho hp, hrest]

theorem schemaOf_agree {type : TypeId}
    (hagree : facts.Agree mode (type :: extractor.expanding) expand expand')
    (he : facts.Appending mode (type :: extractor.expanding) expand')
    (ho : facts.Orderly mode extractor) :
    facts.schemaOf expand type extractor = facts.schemaOf expand' type extractor := by
  have hmembers := properties_agree hagree he (facts.members type).run (ho.enter type) rfl
  simp only [schemaOf, bind, pure]
  rw [Id.run] at hmembers
  rw [hmembers]

/-- Attempts at expansion: each takes one step and leaves nested types to the one before. -/
def Attempts (facts : TypeFacts Id) (mode : SchemaMode)
    (attempt : Nat → TypeId → Extractor → Id (Extracted Unit)) : Prop :=
  ∀ n, attempt (n + 1) = facts.expandStep mode (attempt n)

/-- By induction on the attempts: with the types with alias names on the path there are more of them
than such types. -/
theorem Attempts.agrees (bounded : facts.AliasBounded)
    {attempt : Nat → TypeId → Extractor → Id (Extracted Unit)} (h : facts.Attempts mode attempt)
    {n depth : Nat} {path : List TypeId} (hdepth : facts.Deep depth path)
    (hn : facts.aliasBound < n + (path.filter fun type => facts.IsAliased type).length) :
    facts.Agree mode path (attempt n) (facts.expand mode depth) := by
  induction n generalizing depth path with
  -- With no attempt left there would be too many types with alias names on the path.
  | zero =>
    have hle := bounded (path.filter fun type => facts.IsAliased type) (hdepth.nodup.filter _)
      fun type ht => by simpa using (List.mem_filter.1 ht).2
    omega
  | succ n ih =>
    intro type extractor halias ho hp
    rw [h n, expandStep]
    by_cases hstop : (type ∈ extractor.expanding || (extractor.emittedName? type).isSome) = true
    · rw [if_pos hstop]
      cases depth with
      | zero => rfl
      | succ depth => rw [expand, if_pos hstop]
    · have hnew : type ∉ path := fun ht => hstop (by simp [hp, ht])
      obtain ⟨depth, rfl⟩ := Nat.exists_eq_succ_of_ne_zero (hdepth.pos bounded halias hnew).ne'
      have hbelow : facts.Agree mode (type :: extractor.expanding) (attempt n)
          (facts.expand mode depth) := by
        rw [hp]
        refine ih (hdepth.step halias hnew) ?_
        rw [List.filter_cons_of_pos (by simpa using halias), List.length_cons]
        omega
      rw [if_neg hstop, expand, if_neg hstop,
        schemaOf_agree hbelow (expand_appends facts mode depth _) ho]

/-! ## Sequences of calls -/

/-- Enough attempts at expansion answer a call. -/
theorem Attempts.callWith (bounded : facts.AliasBounded)
    {attempt : Nat → TypeId → Extractor → Id (Extracted Unit)} (h : facts.Attempts mode attempt)
    {n : Nat} (hn : facts.aliasBound < n) (ho : facts.Orderly mode extractor)
    (hroot : extractor.expanding = []) (call : Call) :
    facts.callWith mode (attempt n) extractor call = facts.call mode extractor call := by
  have hschema : ∀ type, facts.schemaOf (attempt n) type extractor =
      facts.schemaOf (facts.expand mode facts.aliasBound) type extractor := fun type => by
    refine schemaOf_agree ?_ (expand_appends facts mode _ _) ho
    rw [hroot]
    exact h.agrees bounded (Deep.root facts type) (by omega)
  rw [call_eq_callWith]
  cases call with
  | extract type => rw [TypeFacts.callWith, TypeFacts.callWith, hschema]
  | extractInto type =>
    rw [TypeFacts.callWith, TypeFacts.callWith, extractIntoWith, extractIntoWith, hschema]

theorem extract_appends (ho : facts.Orderly mode extractor) (type : TypeId) :
    (facts.extract mode type extractor).answer = facts.ownSchema type ∧
      ∃ types, facts.Appends mode extractor types (facts.extract mode type extractor) := by
  obtain ⟨hanswer, types, -, happends⟩ :=
    schemaOf_appends (expand_appends facts mode facts.aliasBound (type :: extractor.expanding)) ho
  exact ⟨hanswer, types, happends⟩

theorem call_appends (ho : facts.Orderly mode extractor) (hroot : extractor.expanding = [])
    (call : Call) :
    ∃ types, facts.Appends mode extractor types (facts.call mode extractor call) := by
  cases call with
  | extract type =>
    obtain ⟨-, types, happends⟩ := extract_appends ho type
    exact ⟨types, happends.answering _⟩
  | extractInto type =>
    rcases hname : extractor.emittedName? type with _ | name
    · have hd : type ∉ extractor.done := by
        rw [← Extractor.isSome_emittedName?, hname]
        exact Bool.false_ne_true
      have hp : type ∉ extractor.expanding := by
        rw [hroot]
        exact List.not_mem_nil
      simp only [TypeFacts.call, extractInto, hname]
      exact schemaOf_recorded_appends (expand_appends facts mode facts.aliasBound _) ho hp hd _
    · simp only [TypeFacts.call, extractInto, hname]
      exact ⟨[], .nothing ho _⟩

/-- Between two calls nothing is on the path, and in `dedupe` mode the schemas are those of the types
that the extractor remembers. -/
structure Settles (facts : TypeFacts Id) (mode : SchemaMode) (usage : Usage) : Prop where
  orderly : facts.Orderly mode usage.extractor
  root : usage.extractor.expanding = []
  types : mode = .dedupe → usage.types = usage.extractor.done.reverse.map facts.ownSchema

theorem Settles.proceed {usage : Usage} (h : facts.Settles mode usage) (call : Call) :
    facts.Settles mode (facts.proceed mode usage call) := by
  obtain ⟨types, happends⟩ := call_appends h.orderly h.root call
  refine ⟨happends.orderly h.orderly, happends.expanding.trans h.root, fun hmode => ?_⟩
  have hadded : (facts.proceed mode usage call).types = usage.types ++ types.map facts.ownSchema :=
    congrArg (usage.types ++ ·) happends.added
  have hafter : (facts.proceed mode usage call).extractor = facts.noted mode usage.extractor types :=
    happends.after
  subst hmode
  rw [hadded, hafter, noted_done_dedupe, h.types rfl, List.reverse_append, List.reverse_reverse,
    List.map_append]

theorem settles_afterCalls (facts : TypeFacts Id) (mode : SchemaMode) (calls : List Call) :
    facts.Settles mode (facts.afterCalls mode calls) := by
  induction calls using List.reverseRecOn with
  | nil => exact ⟨.fresh facts mode, rfl, fun _ => rfl⟩
  | append_singleton calls call ih =>
    rw [afterCalls_concat]
    exact ih.proceed call

/-- For finite facts, both modes, and a call after any calls. Enough attempts at expansion answer it,
whatever the first attempt does. It appends to the schemas that are there and leaves nothing on the
path. The schema that `extract` answers from then on is the type's own, which depends neither on the
calls nor on the mode. In `dedupe` mode the schemas are those of the types that were appended, and
these are different types. -/
theorem calls_append (bounded : facts.AliasBounded) (mode : SchemaMode) (calls : List Call)
    (call : Call) :
    (∀ attempt, facts.Attempts mode attempt → ∀ n, facts.aliasBound < n →
      facts.callWith mode (attempt n) (facts.afterCalls mode calls).extractor call =
        facts.call mode (facts.afterCalls mode calls).extractor call) ∧
    (facts.afterCalls mode calls).types <+: (facts.afterCalls mode (calls ++ [call])).types ∧
    (facts.afterCalls mode (calls ++ [call])).extractor.expanding = [] ∧
    (∀ type, (facts.extract mode type (facts.afterCalls mode calls).extractor).run.answer =
      facts.ownSchema type) ∧
    (mode = .dedupe → (facts.afterCalls mode calls).extractor.done.Nodup ∧
      (facts.afterCalls mode calls).types =
        (facts.afterCalls mode calls).extractor.done.reverse.map facts.ownSchema) := by
  have hbefore := settles_afterCalls facts mode calls
  refine ⟨fun attempt h n hn => h.callWith bounded hn hbefore.orderly hbefore.root call, ?_,
    (settles_afterCalls facts mode (calls ++ [call])).root,
    fun type => (extract_appends hbefore.orderly type).1,
    fun hmode => ⟨hbefore.orderly.nodup, hbefore.types hmode⟩⟩
  rw [afterCalls_concat]
  exact List.prefix_append ..

/-- `Forest` and `Tree` lead to each other. The first call leaves `Tree` out, so the next appends it
alone, and the last has nothing to append. -/
theorem calls_append_treeTable :
    treeTable.facts.AliasBounded ∧
    (treeTable.facts.afterCalls .dedupe [.extract ⟨0⟩, .extractInto ⟨2⟩]).types =
      [⟨1⟩, ⟨0⟩, ⟨2⟩].map treeTable.facts.ownSchema ∧
    (treeTable.facts.afterCalls .dedupe
      [.extract ⟨0⟩, .extractInto ⟨2⟩, .extract ⟨1⟩]).extractor.expanding = [] := by
  obtain ⟨-, -, hroot, -, htypes⟩ :=
    calls_append treeTable.aliasBounded .dedupe [.extract ⟨0⟩, .extractInto ⟨2⟩] (.extract ⟨1⟩)
  refine ⟨treeTable.aliasBounded, (htypes rfl).2.trans ?_, hroot⟩
  decide

end TypeFacts

end ComponentSchema
