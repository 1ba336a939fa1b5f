import ComponentSchema.Proofs.Checker.ArenaSteps

/-!
# Resolution goes step by step

Resolving a type expression or a declaration takes an arena through steps, and afterwards the same
declarations are under way as before. This holds for every index and from every sound arena, whether
or not declarations refer to each other in circles, and with whatever bound on the nesting.

What is made of the right-hand side of an alias has the alias name, and is made last (`Finished`): so
that making it and giving the alias its answer can be one step.

Results.
* `resolveWith_finished`: by induction on type expressions, given as much of declarations.
* `resolveDecl_runs`: by induction on the nesting of resolutions.
* `resolve_runs`: for annotations.
-/
namespace ComponentSchema

open Syntax Relation Arena

variable {index : Index} {S : ScopeId → Prop} {a a' a'' : Arena} {scope : ScopeId} {α β : Type}

/-! ## Questions -/

/-- The question takes the arena along `R`, and `Q` holds of its answer. -/
def Runs (R : Arena → Arena → Prop) (a : Arena) (question : Resolve α) (Q : α → Arena → Prop) :
    Prop :=
  R a (question.run a).2 ∧ Q (question.run a).1 (question.run a).2

section

variable {R : Arena → Arena → Prop} {question : Resolve α} {Q Q' : α → Arena → Prop}

theorem Runs.done [Std.Refl R] {answer : α} (hq : Q answer a) : Runs R a (pure answer) Q :=
  ⟨Std.Refl.refl a, hq⟩

theorem Runs.imp (h : Runs R a question Q) (himp : ∀ answer a', R a a' → Q answer a' → Q' answer a') :
    Runs R a question Q' :=
  ⟨h.1, himp _ _ h.1 h.2⟩

theorem Runs.bind [IsTrans Arena R] {next : α → Resolve β} {Q' : β → Arena → Prop}
    (h : Runs R a question Q)
    (hnext : ∀ answer a', R a a' → Q answer a' → Runs R a' (next answer) Q') :
    Runs R a (question >>= next) Q' :=
  ⟨IsTrans.trans _ _ _ h.1 (hnext _ _ h.1 h.2).1, (hnext _ _ h.1 h.2).2⟩

theorem Runs.map {f : α → β} {Q' : β → Arena → Prop} (h : Runs R a question Q)
    (himp : ∀ answer a', Q answer a' → Q' (f answer) a') : Runs R a (f <$> question) Q' :=
  ⟨h.1, himp _ _ h.2⟩

theorem Runs.get_bind {next : Arena → Resolve α} (h : Runs R a (next a) Q) :
    Runs R a (get >>= next) Q := h

end

/-- From one arena to another by steps, with the same declarations under way. -/
structure Moved (index : Index) (S : ScopeId → Prop) (a a' : Arena) : Prop where
  steps : Steps index S a a'
  resolving : ∀ d, a'.declared.lookup d = some .resolving ↔ a.declared.lookup d = some .resolving

/-- The same without keeping answers about annotations and members: this is what resolution does. -/
structure Resolved (index : Index) (S : ScopeId → Prop) (a a' : Arena) : Prop
    extends Moved index S a a' where
  nodes : a'.nodes = a.nodes
  memberTypes : a'.memberTypes = a.memberTypes

theorem Moved.refl (a : Arena) : Moved index S a a := ⟨.refl, fun _ => Iff.rfl⟩

theorem Moved.trans (h : Moved index S a a') (h' : Moved index S a' a'') : Moved index S a a'' :=
  ⟨h.steps.trans h'.steps, fun d => (h'.resolving d).trans (h.resolving d)⟩

theorem Resolved.refl (a : Arena) : Resolved index S a a := ⟨.refl a, rfl, rfl⟩

theorem Resolved.trans (h : Resolved index S a a') (h' : Resolved index S a' a'') :
    Resolved index S a a'' :=
  ⟨h.toMoved.trans h'.toMoved, h'.nodes.trans h.nodes, h'.memberTypes.trans h.memberTypes⟩

instance : Std.Refl (Resolved index S) := ⟨Resolved.refl⟩

instance : IsTrans Arena (Resolved index S) := ⟨fun _ _ _ => Resolved.trans⟩

theorem Moved.retains (h : Moved index S a a') : Retains a a' := h.steps.retains

/-- A step that takes up no declaration, settles none and keeps no other answer. -/
theorem Resolved.step (h : Step index S a a') (hdeclared : a'.declared = a.declared)
    (hnodes : a'.nodes = a.nodes) (hmemberTypes : a'.memberTypes = a.memberTypes) :
    Resolved index S a a' :=
  ⟨⟨.single h, fun d => by rw [hdeclared]⟩, hnodes, hmemberTypes⟩

namespace Resolve

/-! ## Types and members -/

theorem push_runs {data : TypeData} (hname : data.aliasName = none)
    (hintrinsic : data.intrinsic = none) (hdata : a.Holds data.members) :
    Runs (Resolved index S) a (push data) fun t a' => a'.HasType t :=
  ⟨.step (.type data hname hintrinsic hdata) rfl rfl rfl, hasType_nextType a data⟩

theorem intrinsic_runs (h : Sound index S a) (keyword : KeywordType) :
    Runs (Resolved index S) a (intrinsic keyword) fun t a' => a'.HasType t := by
  refine Runs.get_bind ?_
  rcases hlook : a.intrinsics.lookup keyword with _ | t
  · exact ⟨.step (.keyword keyword hlook) rfl rfl rfl, hasType_nextType a _⟩
  · exact .done (h.intrinsics _ (mem_of_lookup hlook))

theorem builtinJsxElement_runs (h : Sound index S a) :
    Runs (Resolved index S) a builtinJsxElement fun t a' => a'.HasType t := by
  refine Runs.get_bind ?_
  rcases hlook : a.jsxElement with _ | t
  · exact ⟨.step (.jsxElement hlook) rfl rfl rfl, hasType_nextType a _⟩
  · exact .done (h.jsxElement t (by simp [hlook]))

/-- New members are members of the arena, and have the names they are made with. -/
theorem mapM_pushMember_runs (data : List MemberData) (hscopes : ∀ member ∈ data, S member.scope) :
    Runs (Resolved index S) a (data.mapM pushMember) fun members a' =>
      (∀ m ∈ members, a'.HasMember m) ∧
        members.map (fun m => (a'.memberData m).name) = data.map (·.name) := by
  induction data generalizing a with
  | nil => exact .done ⟨by simp, rfl⟩
  | cons first rest ih =>
    have hfirst : Runs (Resolved index S) a (pushMember first) fun m a' =>
        a'.HasMember m ∧ a'.memberData m = first := by
      refine ⟨.step (.member first (hscopes first (List.mem_cons_self ..))) rfl rfl rfl, ?_, ?_⟩
      · simp [run_pushMember, HasMember]
      · simp [run_pushMember, memberData]
    rw [List.mapM_cons]
    refine hfirst.bind fun m a' _ hpushed => ?_
    refine (ih fun member hmem => hscopes member (List.mem_cons_of_mem _ hmem)).bind
      fun members a'' hresolved hrest => .done ⟨?_, ?_⟩
    · intro other hother
      rcases List.mem_cons.1 hother with rfl | hother
      · exact hresolved.retains.hasMember hpushed.1
      · exact hrest.1 other hother
    · rw [List.map_cons, List.map_cons, hrest.2, hresolved.retains.memberData hpushed.1, hpushed.2]

theorem scope_of_mem_declaredMembers {members : List TypeMember} {data : MemberData}
    (h : data ∈ declaredMembers scope members) : data.scope = scope := by
  obtain ⟨member, -, hdata⟩ := List.mem_filterMap.1 (mem_of_mem_firstOfEachName h)
  cases member with
  | property key _ _ | method key _ | getter key _ =>
    obtain ⟨name, -, rfl⟩ := Option.map_eq_some_iff.1 hdata
    rfl
  | other => cases hdata

/-- The members that signatures declare can be the members of a type. -/
theorem declaredMembers_runs (hscope : S scope) (members : List TypeMember) :
    Runs (Resolved index S) a ((declaredMembers scope members).mapM pushMember)
      fun ids a' => a'.Holds ids := by
  refine (mapM_pushMember_runs _ fun data hdata => ?_).imp fun ids a' _ ⟨hall, hnames⟩ => ?_
  · rw [scope_of_mem_declaredMembers hdata]
    exact hscope
  · exact ⟨hall, hnames ▸ nodup_firstOfEachName ..⟩

/-- The members of types of a sound arena can be the members of a type. -/
theorem joinMembers_runs (h : Sound index S a) {types : List TypeId}
    (htypes : ∀ t ∈ types, a.HasType t) :
    Runs (Resolved index S) a (joinMembers types) fun members a' => a' = a ∧ a'.Holds members := by
  refine Runs.get_bind (.done ⟨rfl, fun m hm => ?_, nodup_firstOfEachName ..⟩)
  obtain ⟨t, ht, hmem⟩ := List.mem_flatMap.1 (mem_of_mem_firstOfEachName hm)
  exact (h.types _ (Array.mem_of_getElem? (getElem?_types (htypes t ht)))).has m hmem

/-! ## Type expressions -/

/-- What a question may leave behind: an answer, after steps; or, as its answer, a type of the given
alias name that was made last. -/
inductive Finished (index : Index) (S : ScopeId → Prop) (aliasName : Option String) (a : Arena) :
    Option TypeId → Arena → Prop
  | known {r : Option TypeId} {a' : Arena} : Resolved index S a a' → a'.HasAnswer r →
      Finished index S aliasName a r a'
  | made {a' : Arena} (data : TypeData) : Resolved index S a a' → data.aliasName = aliasName →
      data.intrinsic = none → a'.Holds data.members →
      Finished index S aliasName a (some a'.nextType) (a'.addType data)

/-- Without an alias name, making the type is one more step. -/
theorem Finished.resolved {r : Option TypeId} (h : Finished index S none a r a') :
    Resolved index S a a' ∧ a'.HasAnswer r := by
  cases h with
  | known hresolved hr => exact ⟨hresolved, hr⟩
  | made data hresolved hname hintrinsic hdata =>
    exact ⟨hresolved.trans (.step (.type data hname hintrinsic hdata) rfl rfl rfl),
      .some (hasType_nextType _ data)⟩

theorem Finished.of_runs {aliasName : Option String} {question : Resolve (Option TypeId)}
    (h : Runs (Resolved index S) a question fun r a' => a'.HasAnswer r) :
    Finished index S aliasName a (question.run a).1 (question.run a).2 :=
  .known h.1 h.2

/-- A type may be made last, after other questions. -/
theorem Finished.push {aliasName : Option String} {question : Resolve α} (data : α → TypeData)
    (h : Runs (Resolved index S) a question fun answer a' => a'.Holds (data answer).members)
    (hname : ∀ answer, (data answer).aliasName = aliasName)
    (hintrinsic : ∀ answer, (data answer).intrinsic = none) :
    Finished index S aliasName a ((question >>= fun answer => some <$> push (data answer)).run a).1
      ((question >>= fun answer => some <$> push (data answer)).run a).2 :=
  .made (data _) h.1 (hname _) (hintrinsic _) h.2

variable {declared : DeclId → Resolve (Option TypeId)}

/-- From every sound arena, a declaration is answered after steps. -/
def Answers (index : Index) (S : ScopeId → Prop) (declared : DeclId → Resolve (Option TypeId)) :
    Prop :=
  ∀ {a : Arena} (d : DeclId), Sound index S a →
    Runs (Resolved index S) a (declared d) fun r a' => a'.HasAnswer r

theorem resolveName_runs (hd : Answers index S declared) (h : Sound index S a) (scope : ScopeId)
    (segments : List String) :
    Runs (Resolved index S) a (resolveName index declared scope segments)
      fun r a' => a'.HasAnswer r := by
  unfold resolveName
  rcases index.lookup scope segments with _ | d
  · simp only
    split
    · exact (builtinJsxElement_runs h).map fun _ _ => .some
    · exact .done .none
  · exact hd d h

theorem runs_resolveParts {parts : List TypeExpr}
    (hparts : ∀ part ∈ parts, ∀ {a : Arena}, Sound index S a →
      Runs (Resolved index S) a (resolveWith index declared scope none part) fun r a' => a'.HasAnswer r)
    (h : Sound index S a) : Runs (Resolved index S) a (resolveParts index declared scope parts)
      fun types a' => ∀ t ∈ types, a'.HasType t := by
  induction parts generalizing a with
  | nil =>
    rw [resolveParts]
    exact .done (by simp)
  | cons part rest ih =>
    obtain ⟨hpart, hrest⟩ := List.forall_mem_cons.1 hparts
    rw [resolveParts_cons]
    refine (hpart h).bind fun r a' hresolved hr => ?_
    refine (ih hrest (h.steps hresolved.steps)).bind fun types a'' hresolved' htypes =>
      .done fun other hother => ?_
    rcases List.mem_append.1 hother with hother | hother
    · exact hresolved'.retains.hasType (hr other (Option.mem_toList.1 hother))
    · exact htypes other hother

theorem resolveWith_finished (hd : Answers index S declared) (hscope : S scope)
    (aliasName : Option String) (type : TypeExpr) (h : Sound index S a) :
    Finished index S aliasName a ((resolveWith index declared scope aliasName type).run a).1
      ((resolveWith index declared scope aliasName type).run a).2 := by
  induction type using TypeExpr.resolutionRec generalizing aliasName a with
  | keyword keyword =>
    rw [resolveWith]
    exact .of_runs ((intrinsic_runs h keyword).map fun _ _ => .some)
  | parenthesized inner ih =>
    rw [resolveWith]
    exact ih aliasName h
  | reference name =>
    rw [resolveWith]
    exact .of_runs (resolveName_runs hd h scope name.segments)
  | literal members =>
    rw [resolveWith]
    exact .push (fun ids => ⟨some TypeSymbol.anonymous, aliasName, none, ids⟩)
      (declaredMembers_runs hscope members) (fun _ => rfl) fun _ => rfl
  | single parts part hsingle ih =>
    rw [resolveWith_single hsingle]
    exact .of_runs (ih none h).resolved
  | several parts hseveral =>
    rw [resolveWith_several hseveral]
    exact .made _ (.refl a) rfl rfl (.nil a)
  | intersection parts ih =>
    rw [resolveWith]
    have hjoined : Runs (Resolved index S) a (resolveParts index declared scope parts >>= joinMembers)
        fun members a' => a'.Holds members := by
      refine (runs_resolveParts (fun part hpart _ h => (ih part hpart none h).resolved) h).bind
        fun types a' hresolved htypes => ?_
      exact (joinMembers_runs (h.steps hresolved.steps) htypes).imp fun _ _ _ h => h.2
    exact .push (fun members => ⟨none, aliasName, none, members⟩) hjoined (fun _ => rfl) fun _ => rfl
  | function | constructor =>
    rw [resolveWith]
    exact .made _ (.refl a) rfl rfl (.nil a)
  | other =>
    rw [resolveWith]
    exact .of_runs ((push_runs rfl rfl (.nil a)).map fun _ _ => .some)

theorem resolveParts_runs (hd : Answers index S declared) (hscope : S scope) (parts : List TypeExpr)
    (h : Sound index S a) : Runs (Resolved index S) a (resolveParts index declared scope parts)
      fun types a' => ∀ t ∈ types, a'.HasType t :=
  runs_resolveParts (fun part _ _ h => (resolveWith_finished hd hscope none part h).resolved) h

/-! ## Declarations -/

/-- From the taking up of a declaration to its answer. -/
theorem resolved_declare {d : DeclId} {r : Option TypeId} {b : Arena}
    (hnew : a.declared.lookup d = none) (h : Resolved index S (a.mark d) b)
    (hsteps : Steps index S a a') (hdeclared : a'.declared = (d, .done r) :: b.declared)
    (hnodes : a'.nodes = b.nodes) (hmemberTypes : a'.memberTypes = b.memberTypes) :
    Resolved index S a a' := by
  refine ⟨⟨hsteps, fun e => ?_⟩, hnodes.trans h.nodes, hmemberTypes.trans h.memberTypes⟩
  have hlookup : a'.declared.lookup e = (b.declare d r).declared.lookup e := by
    rw [hdeclared, declare]
  rw [hlookup, declare_lookup]
  split
  · rename_i hed
    simp [hed, hnew]
  · rename_i hed
    rw [h.resolving e, mark_lookup, if_neg hed]

/-- A declaration that is taken up gets its answer once that has been worked out. -/
theorem Finished.declare {d : DeclId} {decl : TypeDecl} {aliasName : Option String}
    {r : Option TypeId} (hnew : a.declared.lookup d = none)
    (hdecl : index.decls[d.index]? = some decl)
    (hname : ∀ name ∈ aliasName, index.IsAliasNamed d name)
    (h : Finished index S aliasName (a.mark d) r a') :
    Resolved index S a (a'.declare d r) ∧ (a'.declare d r).HasAnswer r := by
  have hmark : Step index S a (a.mark d) := .mark d (lt_size_of_getElem? hdecl) hnew
  have hway : (a.mark d).declared.lookup d = some .resolving :=
    (mark_lookup ..).trans (if_pos rfl)
  have hknown : ∀ {b : Arena}, Resolved index S (a.mark d) b → b.HasAnswer r →
      Resolved index S a (b.declare d r) ∧ (b.declare d r).HasAnswer r := by
    intro b hresolved hr
    have hfinal := (hresolved.resolving d).2 hway
    have hsteps := hresolved.steps.tail (.declare d r hfinal hr)
    exact ⟨resolved_declare hnew hresolved (hsteps.head hmark) rfl rfl rfl,
      (retains_declare r hfinal).hasAnswer hr⟩
  cases aliasName with
  | none =>
    obtain ⟨hresolved, hr⟩ := h.resolved
    exact hknown hresolved hr
  | some name =>
    cases h with
    | known hresolved hr => exact hknown hresolved hr
    | @made b data hresolved hdata hintrinsic hholds =>
      have hfinal := (hresolved.resolving d).2 hway
      have hstep : Step index S b ((b.addType data).declare d (some b.nextType)) :=
        .named d name data (hname name rfl) hfinal hdata hintrinsic hholds
      have hhas := hasType_nextType b data
      exact ⟨resolved_declare hnew hresolved ((hresolved.steps.tail hstep).head hmark) rfl rfl rfl,
        .some hhas⟩

theorem declaredType_finished {d : DeclId} {decl : TypeDecl} (hd : Answers index S declared)
    (hscope : S decl.scope) (hdecl : index.decls[d.index]? = some decl) (h : Sound index S a) :
    ∃ aliasName, (∀ name ∈ aliasName, index.IsAliasNamed d name) ∧
      Finished index S aliasName a ((declaredType index declared decl).run a).1
        ((declaredType index declared decl).run a).2 := by
  obtain ⟨name, scope, bodies | type⟩ := decl
  · refine ⟨none, by simp, ?_⟩
    exact .push (fun ids => ⟨some ⟨name, (index.scope scope).name⟩, none, none, ids⟩)
      (declaredMembers_runs hscope bodies.flatten) (fun _ => rfl) fun _ => rfl
  · refine ⟨some name, ?_, resolveWith_finished hd hscope (some name) type h⟩
    intro other hother
    obtain rfl := Option.some.inj hother
    exact ⟨scope, type, hdecl⟩
  · exact ⟨none, by simp, .made _ (.refl a) rfl rfl (.nil a)⟩

/-- Whatever is under way, and however deep resolutions may nest. -/
theorem resolveDecl_runs (hscopes : ∀ decl ∈ index.decls, S decl.scope) (depth : Nat) :
    Answers index S (resolveDecl index depth) := by
  induction depth with
  | zero => exact fun _ _ => .done .none
  | succ depth ih =>
    intro a d h
    refine Runs.get_bind ?_
    rcases hlook : a.declared.lookup d with _ | state
    · rcases hdecl : index.decls[d.index]? with _ | decl
      · exact .done .none
      · have hmark : Step index S a (a.mark d) := .mark d (lt_size_of_getElem? hdecl) hlook
        obtain ⟨aliasName, hname, hfinished⟩ :=
          declaredType_finished ih (hscopes decl (Array.mem_of_getElem? hdecl)) hdecl (h.step hmark)
        exact hfinished.declare hlook hdecl hname
    · cases state with
      | resolving => exact .done .none
      | done r => exact .done ((h.declared _ (mem_of_lookup hlook)).2 r rfl)

theorem declared_runs (hscopes : ∀ decl ∈ index.decls, S decl.scope) :
    Answers index S (Resolve.declared index) :=
  resolveDecl_runs hscopes (index.decls.size + 1)

theorem resolve_runs (hscopes : ∀ decl ∈ index.decls, S decl.scope) (h : Sound index S a)
    (hscope : S scope) (type : TypeExpr) :
    Runs (Resolved index S) a (resolve index scope type) fun r a' => a'.HasAnswer r :=
  (resolveWith_finished (declared_runs hscopes) hscope none type h).resolved

end Resolve

end ComponentSchema
