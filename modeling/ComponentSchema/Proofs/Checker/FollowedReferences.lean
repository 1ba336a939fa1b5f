import ComponentSchema.Proofs.Checker.QuerySteps

/-!
# References while they are followed

A reference may be followed in the middle of anything: in the right-hand side of an alias that is
itself being resolved because something refers to it, and after whatever the same type expression has
referred to before. A `Moment` is one at which a declaration is asked for: the declaration, the arena
at that time, and the bound on the nesting from there.

At every moment the declarations under way are a chain of references that leads to the one asked for
(`Moment.Under`). So a declaration that is under way when it is asked for refers to itself, and any
other one has got its answer afterwards.

Results.
* `Meets.meeting`: what an arena has after a reference was followed stays until the type expression is
  resolved.
* `exists_meets`: every declaration that a type expression mentions is asked for.
* `Moment.Under.passes`: from one moment to the moments of its right-hand side.
* `Occurs.answered`: a declaration that does not refer to itself has got the answer that was given
  when it was asked for.
-/
namespace ComponentSchema

open Syntax Relation Arena

variable {index : Index} {S : ScopeId → Prop} {a a' b : Arena} {scope : ScopeId} {d e : DeclId}
variable {declared : DeclId → Resolve (Option TypeId)}

/-- While a type expression is resolved from one arena on, a declaration is asked for in another. -/
inductive Meets (index : Index) (declared : DeclId → Resolve (Option TypeId)) (scope : ScopeId) :
    TypeExpr → Arena → DeclId → Arena → Prop
  | reference {name : EntityName} {a : Arena} {d : DeclId} :
      index.lookup scope name.segments = some d → Meets index declared scope (.reference name) a d a
  | parenthesized {inner : TypeExpr} {a b : Arena} {d : DeclId} :
      Meets index declared scope inner a d b →
      Meets index declared scope (.parenthesized inner) a d b
  | single {parts : List TypeExpr} {part : TypeExpr} {a b : Arena} {d : DeclId} :
      (parts.filter fun part => !Resolve.isNullish part) = [part] →
      Meets index declared scope part a d b → Meets index declared scope (.union parts) a d b
  | part {before after : List TypeExpr} {part : TypeExpr} {a b : Arena} {d : DeclId} :
      Meets index declared scope part
        ((Resolve.resolveParts index declared scope before).run a).2 d b →
      Meets index declared scope (.intersection (before ++ part :: after)) a d b

namespace Resolve

/-- After the first part of an intersection, the others are resolved. -/
theorem resolveParts_cons_arena (part : TypeExpr) (rest : List TypeExpr) (a : Arena) :
    ((resolveParts index declared scope (part :: rest)).run a).2 =
      ((resolveParts index declared scope rest).run
        ((resolveWith index declared scope none part).run a).2).2 := by
  rw [resolveParts_cons]
  rfl

theorem resolveParts_append (before after : List TypeExpr) (a : Arena) :
    ((resolveParts index declared scope (before ++ after)).run a).2 =
      ((resolveParts index declared scope after).run
        ((resolveParts index declared scope before).run a).2).2 := by
  induction before generalizing a with
  | nil =>
    rw [List.nil_append, resolveParts]
    rfl
  | cons part rest ih => rw [List.cons_append, resolveParts_cons_arena, resolveParts_cons_arena, ih]

end Resolve

theorem Resolve.Finished.resolving {aliasName : Option String} {r : Option TypeId}
    (h : Resolve.Finished index S aliasName a r a') (d : DeclId) :
    a'.declared.lookup d = some .resolving ↔ a.declared.lookup d = some .resolving := by
  cases h with
  | known hresolved _ => exact hresolved.resolving d
  | made data hresolved _ _ _ => exact hresolved.resolving d

/-- What is known of an arena in which a type expression asks for a declaration. -/
structure Meeting (index : Index) (S : ScopeId → Prop)
    (declared : DeclId → Resolve (Option TypeId)) (a b last : Arena) (d : DeclId) : Prop where
  before : Resolved index S a b
  rest : Retains ((declared d).run b).2 last

/-- What was made and answered by the time a reference has been followed stays until the type
expression is resolved. -/
theorem Meets.meeting (hd : Resolve.Answers index S declared) (hscope : S scope) {type : TypeExpr}
    (h : Meets index declared scope type a d b) (hs : Sound index S a) (aliasName : Option String) :
    Meeting index S declared a b
      ((Resolve.resolveWith index declared scope aliasName type).run a).2 d := by
  induction h generalizing aliasName with
  | @reference name a d hlook =>
    rw [Resolve.resolveWith, Resolve.resolveName, hlook]
    exact ⟨.refl a, .refl _⟩
  | parenthesized _ ih =>
    rw [Resolve.resolveWith]
    exact ih hs aliasName
  | single hparts _ ih =>
    rw [Resolve.resolveWith_single hparts]
    exact ih hs none
  | @part before after part a b d _ ih =>
    have hbefore := Resolve.resolveParts_runs hd hscope before hs
    have hs' := hs.steps hbefore.1.steps
    obtain ⟨hmet, hrest⟩ := ih hs' none
    have hpart := (Resolve.resolveWith_finished hd hscope none part hs').resolved
    have hafter := Resolve.resolveParts_runs hd hscope after (hs'.steps hpart.1.steps)
    -- The intersection itself is made when all its parts have been resolved.
    have hlast : ∀ types b', Retains b' (((Resolve.joinMembers types >>= fun members =>
        some <$> Resolve.push ⟨none, aliasName, none, members⟩).run b').2) :=
      fun types b' => retains_addType b' _
    have hparts : Retains ((Resolve.resolveWith index declared scope none part).run
          ((Resolve.resolveParts index declared scope before).run a).2).2
        ((Resolve.resolveParts index declared scope (before ++ part :: after)).run a).2 := by
      rw [Resolve.resolveParts_append, Resolve.resolveParts_cons_arena]
      exact hafter.1.toMoved.retains
    rw [Resolve.resolveWith]
    exact ⟨hbefore.1.trans hmet, hrest.trans (hparts.trans (hlast _ _))⟩

theorem Meets.mentions {type : TypeExpr} (h : Meets index declared scope type a d b) :
    index.Mentions scope type.names d := by
  induction h with
  | reference hlook => exact ⟨_, List.mem_singleton_self _, hlook⟩
  | parenthesized _ ih => rwa [TypeExpr.names]
  | single hparts _ ih =>
    rw [TypeExpr.names_single hparts]
    exact ih
  | @part before after part a b d _ ih =>
    exact Index.mentions_intersection.2 ⟨part, List.mem_append_right _ (List.mem_cons_self ..), ih⟩

/-- Every declaration that a type expression mentions is asked for when it is resolved. -/
theorem exists_meets (type : TypeExpr) (h : index.Mentions scope type.names d) (a : Arena) :
    ∃ b, Meets index declared scope type a d b := by
  induction type using TypeExpr.resolutionRec generalizing a with
  | reference name =>
    obtain ⟨segments, hmem, hlook⟩ := h
    obtain rfl := List.mem_singleton.1 hmem
    exact ⟨a, .reference hlook⟩
  | parenthesized inner ih =>
    rw [TypeExpr.names] at h
    obtain ⟨b, hmeets⟩ := ih h a
    exact ⟨b, .parenthesized hmeets⟩
  | single parts part hsingle ih =>
    rw [TypeExpr.names_single hsingle] at h
    obtain ⟨b, hmeets⟩ := ih h a
    exact ⟨b, .single hsingle hmeets⟩
  | several parts hseveral =>
    rw [TypeExpr.names_several hseveral] at h
    exact absurd h Index.not_mentions_nil
  | intersection parts ih =>
    obtain ⟨part, hpart, hmention⟩ := Index.mentions_intersection.1 h
    obtain ⟨before, after, rfl⟩ := List.append_of_mem hpart
    obtain ⟨b, hmeets⟩ := ih part hpart hmention _
    exact ⟨b, .part hmeets⟩
  | keyword | literal | function | constructor | other => exact absurd h Index.not_mentions_nil

namespace Resolve

/-! ## Steps of a resolution -/

/-- One step of the resolution of a declaration; `below` resolves those that it asks for. -/
def resolveStep (index : Index) (below : DeclId → Resolve (Option TypeId)) (d : DeclId) :
    Resolve (Option TypeId) := do
  match (← get).declared.lookup d with
  | some (.done type) => pure type
  | some .resolving => pure none
  | none =>
    match index.decls[d.index]? with
    | none => pure none
    | some decl =>
      modify fun arena => arena.mark d
      let type ← declaredType index below decl
      modify fun arena => arena.declare d type
      pure type

theorem resolveDecl_succ (index : Index) (depth : Nat) :
    resolveDecl index (depth + 1) = resolveStep index (resolveDecl index depth) := rfl

/-- A declaration that is new is taken up, and gets what is made of its right-hand side. -/
theorem resolveStep_run {decl : TypeDecl} (hnew : a.declared.lookup d = none)
    (hdecl : index.decls[d.index]? = some decl) :
    (resolveStep index declared d).run a =
      let found := (declaredType index declared decl).run (a.mark d)
      (found.1, found.2.declare d found.1) := by
  simp only [resolveStep, StateT.run_bind, StateT.run_get, pure_bind, hnew, hdecl]
  rfl

end Resolve

/-! ## Moments -/

/-- A moment at which a declaration is asked for; from there resolutions may nest `depth` deep. -/
structure Moment where
  depth : Nat
  decl : DeclId
  arena : Arena

namespace Moment

variable {m m' : Moment} {opened : List DeclId}

/-- What is answered. -/
def answer (index : Index) (m : Moment) : Option TypeId :=
  ((Resolve.resolveDecl index m.depth m.decl).run m.arena).1

/-- The arena when the answer is given. -/
def last (index : Index) (m : Moment) : Arena :=
  ((Resolve.resolveDecl index m.depth m.decl).run m.arena).2

/-- While the declaration of one moment is resolved, that of another is asked for. -/
inductive Passes (index : Index) : Moment → Moment → Prop
  | rightSide {depth : Nat} {d e : DeclId} {a b : Arena} {name : String} {scope : ScopeId}
      {type : TypeExpr} : a.declared.lookup d = none →
      index.decls[d.index]? = some ⟨name, scope, .typeAlias type⟩ →
      Meets index (Resolve.resolveDecl index depth) scope type (a.mark d) e b →
      Passes index ⟨depth + 1, d, a⟩ ⟨depth, e, b⟩

/-- The declarations under way are different ones, each of which refers to the one asked for, and
there is room for those that are not under way. -/
structure Under (index : Index) (S : ScopeId → Prop) (opened : List DeclId) (m : Moment) : Prop where
  sound : Sound index S m.arena
  marked : Marked opened m.arena
  chain : Opened index opened m.decl
  leads : ∀ o ∈ opened, TransGen index.Refers o m.decl
  room : index.decls.size < m.depth + opened.length

theorem Under.passes (hscopes : ∀ decl ∈ index.decls, S decl.scope) (h : m.Under index S opened)
    (hp : m.Passes index m') :
    m'.Under index S (m.decl :: opened) ∧ Retains (m'.last index) (m.last index) := by
  cases hp with
  | @rightSide depth d e a b name scope type hnew hdecl hmeets =>
    have hscope : S scope := hscopes _ (Array.mem_of_getElem? hdecl)
    have hanswers : Resolve.Answers index S (Resolve.resolveDecl index depth) :=
      Resolve.resolveDecl_runs hscopes depth
    have hsound : Sound index S (a.mark d) :=
      h.sound.step (.mark d (lt_size_of_getElem? hdecl) hnew)
    obtain ⟨hbefore, hrest⟩ := hmeets.meeting hanswers hscope hsound (some name)
    have hclosed : d ∉ opened := fun hd => by
      have hway := (h.marked d).2 hd
      rw [hnew] at hway
      cases hway
    have hrefers : index.Refers d e := ⟨scope, type, ⟨name, hdecl⟩, hmeets.mentions⟩
    refine ⟨⟨hsound.steps hbefore.steps, fun f => ?_, h.chain.cons hclosed hdecl hrefers, ?_, ?_⟩, ?_⟩
    · exact (hbefore.resolving f).trans (h.marked.mark d f)
    · intro o ho
      rcases List.mem_cons.1 ho with rfl | ho
      · exact .single hrefers
      · exact (h.leads o ho).tail hrefers
    · have hroom := h.room
      simp only [List.length_cons] at hroom ⊢
      omega
    · have hfinished := Resolve.resolveWith_finished hanswers hscope (some name) type hsound
      have hway : ((Resolve.resolveWith index (Resolve.resolveDecl index depth) scope (some name)
          type).run (a.mark d)).2.declared.lookup d = some .resolving :=
        (hfinished.resolving d).2 ((mark_lookup ..).trans (if_pos rfl))
      rw [last, last, Resolve.resolveDecl_succ, Resolve.resolveStep_run hnew hdecl]
      exact hrest.trans (retains_declare _ hway)

/-- Along any chain of moments. -/
theorem Under.passesAll (hscopes : ∀ decl ∈ index.decls, S decl.scope) (h : m.Under index S opened)
    (hp : ReflTransGen (Passes index) m m') :
    (∃ opened, m'.Under index S opened) ∧ Retains (m'.last index) (m.last index) := by
  induction hp with
  | refl => exact ⟨⟨opened, h⟩, .refl _⟩
  | tail _ hp ih =>
    obtain ⟨⟨opened', h'⟩, hretains⟩ := ih
    obtain ⟨hunder, hretains'⟩ := h'.passes hscopes hp
    exact ⟨⟨_, hunder⟩, hretains'.trans hretains⟩

/-- A declaration that does not refer to itself has got its answer when it has been given. -/
theorem Under.answered {decl : TypeDecl} (h : m.Under index S opened)
    (hdecl : index.decls[m.decl.index]? = some decl) (hcircle : ¬ TransGen index.Refers m.decl m.decl) :
    (m.last index).declared.lookup m.decl = some (.done (m.answer index)) := by
  obtain ⟨depth, d, a⟩ := m
  have hroom := h.room
  have hlength := h.chain.length_le
  obtain ⟨depth, rfl⟩ : ∃ n, depth = n + 1 := ⟨depth - 1, by simp only at hroom; omega⟩
  rcases hlook : a.declared.lookup d with _ | state
  · rw [last, answer, Resolve.resolveDecl_succ, Resolve.resolveStep_run hlook hdecl]
    exact (declare_lookup ..).trans (if_pos rfl)
  · cases state with
    -- While it is under way it is only asked for if it refers to itself.
    | resolving => exact absurd (h.leads d ((h.marked d).1 hlook)) hcircle
    | done r =>
      have hrun : (Resolve.resolveDecl index (depth + 1) d).run a = (r, a) := by
        simp only [Resolve.resolveDecl, StateT.run_bind, StateT.run_get, pure_bind, hlook]
        rfl
      rw [last, answer, hrun]
      exact hlook

end Moment

/-- While a type expression is resolved between two queries, a reference is followed at a moment. -/
inductive Occurs (index : Index) (scope : ScopeId) (type : TypeExpr) (a : Arena) : Moment → Prop
  | meets {d : DeclId} {b : Arena} {m : Moment} :
      Meets index (Resolve.declared index) scope type a d b →
      ReflTransGen (Moment.Passes index) ⟨index.decls.size + 1, d, b⟩ m →
      Occurs index scope type a m

theorem Occurs.under (hscopes : ∀ decl ∈ index.decls, S decl.scope) (hscope : S scope)
    {type : TypeExpr} {m : Moment} (h : Occurs index scope type a m) (hs : Sound index S a)
    (hidle : Marked [] a) :
    (∃ opened, m.Under index S opened) ∧
      Retains (m.last index) ((Resolve.resolve index scope type).run a).2 := by
  cases h with
  | @meets d b m hmeets hp =>
    obtain ⟨hbefore, hrest⟩ := hmeets.meeting (Resolve.declared_runs hscopes) hscope hs none
    have hfirst : (Moment.mk (index.decls.size + 1) d b).Under index S [] :=
      ⟨hs.steps hbefore.steps, fun e => (hbefore.resolving e).trans (hidle e), .nil index d,
        by simp, by simp⟩
    obtain ⟨hunder, hretains⟩ := hfirst.passesAll hscopes hp
    exact ⟨hunder, hretains.trans hrest⟩

/-- When the type expression has been resolved, a declaration that does not refer to itself has got
the answer that was given when it was asked for. -/
theorem Occurs.answered (hscopes : ∀ decl ∈ index.decls, S decl.scope) (hscope : S scope)
    {type : TypeExpr} {m : Moment} (h : Occurs index scope type a m) (hs : Sound index S a)
    (hidle : Marked [] a) {decl : TypeDecl} (hdecl : index.decls[m.decl.index]? = some decl)
    (hcircle : ¬ TransGen index.Refers m.decl m.decl) :
    ((Resolve.resolve index scope type).run a).2.declared.lookup m.decl =
      some (.done (m.answer index)) := by
  obtain ⟨⟨opened, hunder⟩, hretains⟩ := h.under hscopes hscope hs hidle
  exact hretains.declared (hunder.answered hdecl hcircle)

end ComponentSchema
