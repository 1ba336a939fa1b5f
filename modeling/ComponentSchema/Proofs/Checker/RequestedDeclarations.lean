import ComponentSchema.Proofs.Checker.QuestionAnswers

/-!
# What has been asked for

An arena remembers which declarations have been asked for. With a declaration all those are asked for
that its right-hand side mentions, and with an annotation all those that it mentions. So whether a
question has met a circle of aliases can be read off the arena afterwards: the circle is among the
declarations that were asked for.

Hypotheses. `NoneMet`: no query has met a declaration that was still being resolved. `Straight`: no
declaration that was asked for refers to itself, directly or through others.

Results.
* `resolve_takes`: what an annotation mentions has been asked for when it has been resolved.
* `Index.NoneMet.straight`: the second follows from the first.
* `Followed.untangled`: in a straight arena, what has been asked for is untangled.
* `Asks.bind`: questions one after the other, with what is known in a straight arena.
* `typeOfNode_asks`, `memberType_asks`: in a straight arena, the answers are what the annotations
  denote.
-/
namespace ComponentSchema

open Syntax Relation

/-! ## Declarations that have been asked for -/

/-- A declaration has been asked for. -/
def Arena.Asked (a : Arena) (d : DeclId) : Prop := a.declared.lookup d ≠ none

/-- A declaration has been asked for, or there is no such declaration. -/
def Index.Taken (index : Index) (a : Arena) (d : DeclId) : Prop :=
  a.Asked d ∨ index.decls[d.index]? = none

/-- All that a declaration refers to has been asked for, if the declaration has got its answer. -/
def Index.Closed (index : Index) (a : Arena) : Prop :=
  ∀ d r, a.declared.lookup d = some (.done r) → ∀ e, index.Refers d e → index.Taken a e

/-- An arena in which all of `S` have been asked for since `a`. -/
structure Covers (index : Index) (a a' : Arena) (S : DeclId → Prop) : Prop where
  grows : ∀ d, a.Asked d → a'.Asked d
  resolving : ∀ d, a'.declared.lookup d = some .resolving ↔ a.declared.lookup d = some .resolving
  closed : index.Closed a → index.Closed a'
  taken : ∀ d, S d → index.Taken a' d

/-- A question by which all of `S` are asked for. -/
def Takes {α : Type} (index : Index) (a : Arena) (question : Resolve α) (S : DeclId → Prop) : Prop :=
  Covers index a (question.run a).2 S

section

variable {index : Index} {a a' a'' : Arena} {S T : DeclId → Prop} {scope : ScopeId}
  {opened : List DeclId} {α β : Type}

theorem Index.Taken.mono {d : DeclId} (h : index.Taken a d) (hgrows : ∀ d, a.Asked d → a'.Asked d) :
    index.Taken a' d :=
  h.imp_left (hgrows d)

theorem Covers.of_declared (h : a'.declared = a.declared) : Covers index a a' fun _ => False where
  grows d hd := by rwa [Arena.Asked, h]
  resolving d := by rw [h]
  closed hclosed d r hd e hr := by
    rw [h] at hd
    refine (hclosed d r hd e hr).mono fun d hd => ?_
    rwa [Arena.Asked, h]
  taken d hd := hd.elim

theorem Covers.trans (h : Covers index a a' S) (h' : Covers index a' a'' T) :
    Covers index a a'' fun d => S d ∨ T d where
  grows d hd := h'.grows d (h.grows d hd)
  resolving d := (h'.resolving d).trans (h.resolving d)
  closed hclosed := h'.closed (h.closed hclosed)
  taken d hd := hd.elim (fun hd => (h.taken d hd).mono h'.grows) (h'.taken d)

theorem Covers.imp (h : Covers index a a' S) (himp : ∀ d, T d → S d) : Covers index a a' T :=
  { h with taken := fun d hd => h.taken d (himp d hd) }

theorem Covers.marked (h : Covers index a a' S) (hm : Marked opened a) : Marked opened a' :=
  fun d => (h.resolving d).trans (hm d)

namespace Takes

variable {question : Resolve α}

theorem done (index : Index) (a : Arena) (answer : α) :
    Takes index a (pure answer : Resolve α) fun _ => False :=
  .of_declared rfl

theorem bind {next : α → Resolve β} (h : Takes index a question S)
    (hnext : ∀ answer a', Covers index a a' S → Takes index a' (next answer) T) :
    Takes index a (question >>= next) fun d => S d ∨ T d :=
  Covers.trans h (hnext _ _ h)

theorem imp (h : Takes index a question S) (himp : ∀ d, T d → S d) : Takes index a question T :=
  Covers.imp h himp

/-- What the first question asks for. -/
theorem bind_left {next : α → Resolve β} (h : Takes index a question S)
    (hnext : ∀ answer a', Covers index a a' S → Takes index a' (next answer) T) :
    Takes index a (question >>= next) S :=
  (h.bind hnext).imp fun _ => .inl

/-- What the second question asks for. -/
theorem bind_right {next : α → Resolve β} (h : Takes index a question S)
    (hnext : ∀ answer a', Covers index a a' S → Takes index a' (next answer) T) :
    Takes index a (question >>= next) T :=
  (h.bind hnext).imp fun _ => .inr

theorem map {f : α → β} (h : Takes index a question S) : Takes index a (f <$> question) S := h

theorem get_bind {next : Arena → Resolve α} (h : Takes index a (next a) S) :
    Takes index a (get >>= next) S := h

end Takes

/-! ## Type expressions -/

namespace Resolve

variable {declared : DeclId → Resolve (Option TypeId)}

theorem push_takes (data : TypeData) : Takes index a (push data) fun _ => False :=
  .of_declared rfl

theorem mapM_pushMember_takes (data : List MemberData) :
    Takes index a (data.mapM pushMember) fun _ => False := by
  induction data generalizing a with
  | nil => exact .done ..
  | cons first rest ih =>
    have hpush : Takes index a (pushMember first) fun _ => False := .of_declared rfl
    rw [List.mapM_cons]
    exact hpush.bind_right fun _ _ _ => ih.bind_left fun _ _ _ => .done ..

theorem intrinsic_takes (keyword : KeywordType) :
    Takes index a (intrinsic keyword) fun _ => False := by
  refine Takes.get_bind ?_
  rcases hlook : a.intrinsics.lookup keyword with _ | t
  · exact .of_declared rfl
  · exact .done ..

theorem builtinJsxElement_takes : Takes index a builtinJsxElement fun _ => False := by
  refine Takes.get_bind ?_
  rcases hlook : a.jsxElement with _ | t
  · exact .of_declared rfl
  · exact .done ..

theorem objectType_takes (symbol : TypeSymbol) (aliasName : Option String) (scope : ScopeId)
    (members : List TypeMember) :
    Takes index a (objectType symbol aliasName scope members) fun _ => False :=
  (mapM_pushMember_takes _).bind_left fun _ _ _ => push_takes _

/-- While the declarations of `opened` are under way, a declaration that is resolved has been asked
for. -/
def Keyed (index : Index) (opened : List DeclId) (declared : DeclId → Resolve (Option TypeId))
    (d : DeclId) : Prop :=
  ∀ {a : Arena}, Marked opened a → Takes index a (declared d) (· = d)

theorem resolveName_takes {segments : List String} (hm : Marked opened a)
    (hd : ∀ d, index.lookup scope segments = some d → Keyed index opened declared d) :
    Takes index a (resolveName index declared scope segments)
      fun d => index.lookup scope segments = some d := by
  unfold resolveName
  rcases hlook : index.lookup scope segments with _ | d
  · simp only
    split
    · exact builtinJsxElement_takes.map.imp fun d hd => nomatch hd
    · exact (Takes.done ..).imp fun d hd => nomatch hd
  · exact (hd d hlook hm).imp fun e he => (Option.some.inj he).symm

theorem resolveParts_takes {parts : List TypeExpr}
    (hparts : ∀ part ∈ parts, ∀ {a : Arena}, Marked opened a →
      Takes index a (resolveWith index declared scope none part) (index.Mentions scope part.names))
    (hm : Marked opened a) : Takes index a (resolveParts index declared scope parts)
      fun d => ∃ part ∈ parts, index.Mentions scope part.names d := by
  induction parts generalizing a with
  | nil =>
    rw [resolveParts]
    refine (Takes.done ..).imp ?_
    rintro d ⟨part, hpart, -⟩
    cases hpart
  | cons part rest ih =>
    obtain ⟨hpart, hrest⟩ := List.forall_mem_cons.1 hparts
    rw [resolveParts_cons]
    refine ((hpart hm).bind fun _ _ hc => (ih hrest (hc.marked hm)).bind_left
      fun _ _ _ => .done ..).imp fun d hd => ?_
    simpa using hd

theorem resolveWith_takes (aliasName : Option String) (type : TypeExpr) (hm : Marked opened a)
    (hd : ∀ d, index.Mentions scope type.names d → Keyed index opened declared d) :
    Takes index a (resolveWith index declared scope aliasName type)
      (index.Mentions scope type.names) := by
  induction type using TypeExpr.resolutionRec generalizing aliasName a with
  | keyword keyword =>
    rw [resolveWith]
    exact (intrinsic_takes keyword).map.imp fun _ h => Index.not_mentions_nil h
  | parenthesized inner ih =>
    simp only [resolveWith, TypeExpr.names] at hd ⊢
    exact ih aliasName hm hd
  | reference name =>
    simp only [resolveWith, TypeExpr.names] at hd ⊢
    refine (resolveName_takes hm fun d hlook => hd d ⟨_, List.mem_singleton_self _, hlook⟩).imp ?_
    rintro d ⟨segments, hs, hlook⟩
    rwa [List.mem_singleton.1 hs] at hlook
  | literal members =>
    rw [resolveWith]
    exact (objectType_takes _ aliasName scope members).map.imp fun _ h => Index.not_mentions_nil h
  | single parts part hsingle ih =>
    rw [TypeExpr.names_single hsingle] at hd ⊢
    rw [resolveWith_single hsingle]
    exact ih none hm hd
  | several parts hseveral =>
    rw [TypeExpr.names_several hseveral, resolveWith_several hseveral]
    exact (push_takes _).map.imp fun _ h => Index.not_mentions_nil h
  | intersection parts ih =>
    have hparts : Takes index a (resolveParts index declared scope parts)
        (index.Mentions scope (TypeExpr.intersection parts).names) :=
      (resolveParts_takes (fun part hpart _ hm => ih part hpart none hm fun d hd' =>
        hd d (Index.mentions_intersection.2 ⟨part, hpart, hd'⟩)) hm).imp
          fun _ => Index.mentions_intersection.1
    rw [resolveWith]
    refine hparts.bind_left (T := fun _ => False) fun types a' _ => ?_
    exact Takes.get_bind ((push_takes _).map)
  | function | constructor | other =>
    rw [resolveWith]
    exact Takes.map (Takes.imp (push_takes _) fun _ h => Index.not_mentions_nil h)

/-! ## Declarations -/

theorem declaredType_takes {d : DeclId} {decl : TypeDecl}
    (hdecl : index.decls[d.index]? = some decl) (hm : Marked opened a)
    (hd : ∀ e, index.Refers d e → Keyed index opened declared e) :
    Takes index a (declaredType index declared decl) (index.Refers d) := by
  have hnone : ∀ {kind : TypeDeclKind} {name : String} {scope : ScopeId},
      (∀ type, kind ≠ .typeAlias type) → decl = ⟨name, scope, kind⟩ → ∀ e, ¬ index.Refers d e := by
    rintro kind name scope hkind rfl e ⟨scope', type, ⟨name', halias⟩, -⟩
    rw [hdecl] at halias
    exact hkind type (TypeDecl.mk.inj (Option.some.inj halias)).2.2
  obtain ⟨name, scope, kind⟩ := decl
  rcases kind with bodies | type
  · exact (objectType_takes _ none scope bodies.flatten).map.imp fun e he =>
      hnone (by simp) rfl e he
  · have halias : index.IsAlias d scope type := ⟨name, hdecl⟩
    refine (resolveWith_takes (some name) type hm fun e he => hd e ⟨scope, type, halias, he⟩).imp ?_
    rintro e ⟨scope', type', ⟨name', halias'⟩, hmention⟩
    rw [hdecl] at halias'
    obtain ⟨-, rfl, hkind⟩ := TypeDecl.mk.inj (Option.some.inj halias')
    obtain rfl := TypeDeclKind.typeAlias.inj hkind
    exact hmention
  · exact (push_takes _).map.imp fun e he => hnone (by simp) rfl e he

end Resolve

theorem Arena.Asked.mark {e : DeclId} (he : a.Asked e) (d : DeclId) : (a.mark d).Asked e := by
  rw [Arena.Asked, Arena.mark_lookup]
  split
  · simp
  · exact he

theorem Arena.Asked.declare {e : DeclId} (he : a.Asked e) (d : DeclId) (r : Option TypeId) :
    (a.declare d r).Asked e := by
  rw [Arena.Asked, Arena.declare_lookup]
  split
  · simp
  · exact he

/-- A declaration that is taken up has got no answer yet. -/
theorem Index.Closed.mark (h : index.Closed a) (d : DeclId) : index.Closed (a.mark d) := by
  intro e r he f hr
  rw [Arena.mark_lookup] at he
  split at he
  · cases he
  · exact (h e r he f hr).mono fun _ hd => hd.mark d

/-- A declaration that is taken up and given an answer has been asked for. -/
theorem Takes.declare {d : DeclId} {question : Resolve (Option TypeId)}
    (hnew : a.declared.lookup d = none) (hq : Takes index (a.mark d) question (index.Refers d)) :
    Takes index a
      (modify (fun arena => arena.mark d) >>= fun _ => question >>= fun type =>
        modify (fun arena => arena.declare d type) >>= fun _ => pure type) (· = d) := by
  show Covers index a ((question.run (a.mark d)).2.declare d (question.run (a.mark d)).1) (· = d)
  have hgrows : ∀ e, (question.run (a.mark d)).2.Asked e →
      ((question.run (a.mark d)).2.declare d (question.run (a.mark d)).1).Asked e :=
    fun e he => he.declare d _
  refine ⟨fun e he => hgrows e (hq.grows e (he.mark d)), fun e => ?_, fun hclosed e r he f hr => ?_, ?_⟩
  · rw [Arena.declare_lookup]
    split
    · rename_i hed
      simp [hed, hnew]
    · rename_i hed
      rw [hq.resolving, Arena.mark_lookup, if_neg hed]
  · rw [Arena.declare_lookup] at he
    split at he
    · rename_i hed
      exact (hq.taken f (hed ▸ hr)).mono hgrows
    · exact (hq.closed (hclosed.mark d) e r he f hr).mono hgrows
  · rintro e rfl
    refine .inl ?_
    rw [Arena.Asked, Arena.declare_lookup, if_pos rfl]
    simp

namespace Resolve

theorem resolveDecl_takes {d : DeclId} {depth : Nat} (ho : Opened index opened d)
    (hdepth : index.decls.size < depth + opened.length) :
    Keyed index opened (resolveDecl index depth) d := by
  induction depth generalizing opened d with
  | zero =>
    have := ho.length_le
    omega
  | succ depth ih =>
    intro a hm
    refine Takes.get_bind ?_
    rcases hlook : a.declared.lookup d with _ | state
    · have hnew : d ∉ opened := fun hd => by
        rw [(hm d).2 hd] at hlook
        cases hlook
      rcases hdecl : index.decls[d.index]? with _ | decl
      · exact { Takes.done index a none with taken := fun e he => .inr (he ▸ hdecl) }
      · exact Takes.declare hlook (declaredType_takes hdecl (hm.mark d) fun e hr =>
          ih (ho.cons hnew hdecl hr) (by rw [List.length_cons]; omega))
    · have hasked : a.Asked d := by simp [Arena.Asked, hlook]
      cases state with
      | resolving => exact { Takes.done index a none with taken := fun e he => .inl (he ▸ hasked) }
      | done type => exact { Takes.done index a type with taken := fun e he => .inl (he ▸ hasked) }

theorem declared_takes (index : Index) (d : DeclId) : Keyed index [] (declared index) d := by
  show Keyed index [] (resolveDecl index (index.decls.size + 1)) d
  exact resolveDecl_takes (.nil index d) (by simp)

/-- All that an annotation mentions has been asked for when it has been resolved. -/
theorem resolve_takes (hm : Marked [] a) (scope : ScopeId) (type : TypeExpr) :
    Takes index a (resolve index scope type) (index.Mentions scope type.names) :=
  resolveWith_takes none type hm fun d _ => declared_takes index d

end Resolve

/-! ## Between questions -/

/-- What holds between two questions of what has been asked for. -/
structure Followed (index : Index) (a : Arena) : Prop where
  decls : index.Closed a
  nodes : ∀ {node r site}, a.nodes.lookup node = some r →
    index.typeSites[node.index]? = some site →
      ∀ d, index.Mentions site.scope site.type.names d → index.Taken a d
  known : ∀ {node r}, a.nodes.lookup node = some r → node.index < index.typeSites.size
  members : ∀ {m r data type}, a.memberTypes.lookup m = some r → a.members[m.index]? = some data →
    data.type = .written type → ∀ d, index.Mentions data.scope type.names d → index.Taken a d

/-- No declaration that has been asked for refers to itself, directly or through others. -/
def Index.Straight (index : Index) (a : Arena) : Prop :=
  ∀ d, a.Asked d → ¬ TransGen index.Refers d d

/-- No query has met a declaration that was still being resolved: whenever a declaration got its
answer, all those that it refers to had got theirs. They had been asked for by then, so one without an
answer was under way when it was asked for. -/
def Index.NoneMet (index : Index) (a : Arena) : Prop :=
  ∀ newer older d r, a.declared = newer ++ (d, .done r) :: older →
    ∀ e, index.Refers d e → e.index < index.decls.size → ∃ r', (e, .done r') ∈ older

/-- The declarations that a declaration refers to. -/
def Index.references (index : Index) (d : DeclId) : List DeclId :=
  match index.decls[d.index]? with
  | some ⟨_, scope, .typeAlias type⟩ => type.names.filterMap (index.lookup scope)
  | _ => []

theorem Index.mem_references {d e : DeclId} : e ∈ index.references d ↔ index.Refers d e := by
  unfold references
  constructor
  · intro he
    split at he
    · rename_i name scope type hdecl
      obtain ⟨segments, hs, hlook⟩ := List.mem_filterMap.1 he
      exact ⟨scope, type, ⟨name, hdecl⟩, segments, hs, hlook⟩
    · cases he
  · rintro ⟨scope, type, ⟨name, hdecl⟩, segments, hs, hlook⟩
    rw [hdecl]
    exact List.mem_filterMap.2 ⟨segments, hs, hlook⟩

/-- Whether an entry is the answer of a declaration. -/
def DeclState.isDone : DeclState → Bool
  | .done _ => true
  | .resolving => false

/-- `NoneMet`, computed from the entries of the arena, latest first. -/
def Index.noneMetIn (index : Index) : List (DeclId × DeclState) → Bool
  | [] => true
  | (d, state) :: older =>
    (!state.isDone || (index.references d).all fun e => decide (index.decls.size ≤ e.index) ||
      older.any fun entry => entry.1 == e && entry.2.isDone) && index.noneMetIn older

theorem any_isDone_iff {e : DeclId} {entries : List (DeclId × DeclState)} :
    (entries.any fun entry => entry.1 == e && entry.2.isDone) = true ↔
      ∃ r, (e, .done r) ∈ entries := by
  rw [List.any_eq_true]
  constructor
  · rintro ⟨⟨e', state⟩, hmem, hentry⟩
    obtain ⟨he, hdone⟩ := Bool.and_eq_true_iff.1 hentry
    obtain rfl := beq_iff_eq.1 he
    cases state with
    | done r => exact ⟨r, hmem⟩
    | resolving => cases hdone
  · rintro ⟨r, hmem⟩
    exact ⟨_, hmem, by simp [DeclState.isDone]⟩

theorem Index.noneMetIn_iff {entries : List (DeclId × DeclState)} :
    index.noneMetIn entries = true ↔
      ∀ newer older d r, entries = newer ++ (d, .done r) :: older →
        ∀ e, index.Refers d e → e.index < index.decls.size → ∃ r', (e, .done r') ∈ older := by
  induction entries with
  | nil => simp [noneMetIn]
  | cons entry rest ih =>
    obtain ⟨d, state⟩ := entry
    have hall : ((index.references d).all fun e => decide (index.decls.size ≤ e.index) ||
        rest.any fun entry => entry.1 == e && entry.2.isDone) = true ↔
        ∀ e, index.Refers d e → e.index < index.decls.size → ∃ r', (e, .done r') ∈ rest := by
      simp only [List.all_eq_true, Index.mem_references, Bool.or_eq_true, decide_eq_true_eq,
        any_isDone_iff, or_iff_not_imp_left, Nat.not_le]
    rw [noneMetIn, Bool.and_eq_true, ih, Bool.or_eq_true, hall]
    constructor
    · rintro ⟨hfirst, hrest⟩ newer older d' r hsplit
      rcases newer with _ | ⟨entry, newer⟩
      · obtain ⟨hentry, rfl⟩ := List.cons.inj hsplit
        obtain ⟨rfl, rfl⟩ := Prod.mk.inj hentry
        exact hfirst.resolve_left (by simp [DeclState.isDone])
      · exact hrest newer older d' r (List.cons.inj hsplit).2
    · intro h
      refine ⟨?_, fun newer older d' r hsplit => h ((d, state) :: newer) older d' r (by
        rw [hsplit, List.cons_append])⟩
      cases state with
      | done r => exact .inr (h [] rest d r rfl)
      | resolving => exact .inl rfl

instance (index : Index) (a : Arena) : Decidable (index.NoneMet a) :=
  decidable_of_iff _ Index.noneMetIn_iff

/-- Answers have an order, and a declaration on a circle would have to get its answer before itself. -/
theorem Index.NoneMet.straight (h : index.NoneMet a) (hm : Marked [] a) : index.Straight a := by
  have hearlier : ∀ n newer older d r, a.declared = newer ++ (d, .done r) :: older →
      older.length = n → ¬ TransGen index.Refers d d := by
    intro n
    induction n using Nat.strongRecOn with
    | ind n ih =>
      rintro newer older d r hsplit rfl hloop
      obtain ⟨e, hr, hback⟩ := TransGen.head'_iff.1 hloop
      have hloop' : TransGen index.Refers e e := .tail' hback hr
      obtain ⟨f, ⟨scope, type, ⟨name, hdecl⟩, -⟩, -⟩ := TransGen.head'_iff.1 hloop'
      obtain ⟨r', hmem⟩ := h newer older d r hsplit e hr (lt_size_of_getElem? hdecl)
      obtain ⟨between, older', rfl⟩ := List.append_of_mem hmem
      refine ih older'.length ?_ (newer ++ (d, .done r) :: between) older' e r' ?_ rfl hloop'
      · simp
        omega
      · rw [hsplit, List.append_assoc, List.cons_append]
  intro d hd
  rcases hlook : a.declared.lookup d with _ | state
  · exact absurd hlook hd
  · cases state with
    | resolving => exact absurd ((hm d).1 hlook) (by simp)
    | done r =>
      obtain ⟨newer, older, hsplit, -⟩ := List.lookup_eq_some_iff.1 hlook
      exact hearlier _ newer older d r hsplit rfl

theorem Followed.taken_of_refers (h : Followed index a) (hm : Marked [] a) {d e : DeclId}
    (hd : index.Taken a d) (hr : index.Refers d e) : index.Taken a e := by
  rcases hd with hd | hnone
  · rcases hlook : a.declared.lookup d with _ | state
    · exact absurd hlook hd
    · cases state with
      | resolving => exact absurd ((hm d).1 hlook) (by simp)
      | done r => exact h.decls d r hlook e hr
  · obtain ⟨scope, type, ⟨name, halias⟩, -⟩ := hr
    rw [hnone] at halias
    cases halias

/-- In a straight arena, what has been asked for is untangled. -/
theorem Followed.untangled (h : Followed index a) (hm : Marked [] a) (hs : index.Straight a)
    {d : DeclId} (hd : index.Taken a d) : index.Untangled d := by
  intro e hde
  induction hde using ReflTransGen.head_induction_on with
  | refl =>
    rintro ⟨scope, type, halias, -, f, hmention, -, hback⟩
    have hloop : TransGen index.Refers e e :=
      .head' ⟨scope, type, halias, hmention⟩ hback
    rcases hd with hd | hnone
    · exact hs e hd hloop
    · obtain ⟨name, hdecl⟩ := halias
      rw [hnone] at hdecl
      cases hdecl
  | head hr _ ih => exact ih (h.taken_of_refers hm hd hr)

/-! ## Questions -/

/-- What holds of an arena between two questions, and of what has been asked for. -/
structure Tracked (index : Index) (a : Arena) (w : Naming) : Prop where
  ready : Ready index a w
  followed : Followed index a

/-- The question leaves an arena that is ready for the next one, and in a straight arena an answer
for which `Q` holds. -/
def Asks (index : Index) (a : Arena) (w : Naming) (question : Resolve α)
    (Q : α → Arena → Naming → Prop) : Prop :=
  ∃ w', Extends a w (question.run a).2 w' ∧ Tracked index (question.run a).2 w' ∧
    (∀ d, a.Asked d → (question.run a).2.Asked d) ∧
      (index.Straight (question.run a).2 → Q (question.run a).1 (question.run a).2 w')

variable {w w' : Naming} {question : Resolve α} {Q Q' : α → Arena → Naming → Prop}

theorem Index.Straight.of_grows (h : index.Straight a') (hgrows : ∀ d, a.Asked d → a'.Asked d) :
    index.Straight a :=
  fun d hd => h d (hgrows d hd)

namespace Asks

theorem done {answer : α} (h : Tracked index a w) (hq : Q answer a w) :
    Asks index a w (pure answer) Q :=
  ⟨w, .refl a w, h, fun _ hd => hd, fun _ => hq⟩

theorem imp (h : Asks index a w question Q)
    (himp : ∀ answer a' w', Extends a w a' w' → Q answer a' w' → Q' answer a' w') :
    Asks index a w question Q' := by
  obtain ⟨w', he, ht, hgrows, hq⟩ := h
  exact ⟨w', he, ht, hgrows, fun hs => himp _ _ _ he (hq hs)⟩

/-- What is known of the first answer may be used for what is known of the second. -/
theorem bind {next : α → Resolve β} {R : β → Arena → Naming → Prop} (h : Asks index a w question Q)
    (hnext : ∀ answer a' w', Extends a w a' w' → Tracked index a' w' →
      Asks index a' w' (next answer) fun answer' a'' w'' => Q answer a' w' → R answer' a'' w'') :
    Asks index a w (question >>= next) R := by
  obtain ⟨w', he, ht, hgrows, hq⟩ := h
  obtain ⟨w'', he', ht', hgrows', hr⟩ := hnext _ _ _ he ht
  exact ⟨w'', he.trans he', ht', fun d hd => hgrows' d (hgrows d hd),
    fun hs => hr hs (hq (hs.of_grows hgrows'))⟩

theorem get_bind {next : Arena → Resolve α} (h : Asks index a w (next a) Q) :
    Asks index a w (get >>= next) Q := h

/-- What is read off the arena as it stands. -/
theorem read {observe : Arena → β} {next : β → Resolve α}
    (h : ∀ value, observe a = value → Asks index a w (next value) Q) :
    Asks index a w ((do return observe (← get)) >>= next) Q := h _ rfl

end Asks

/-- A question that keeps no answer leaves the arena as it was but for what it made and what it asked
for. -/
theorem Followed.covers (h : Followed index a) (hc : Covers index a a' S)
    (hnodes : a'.nodes = a.nodes) (hmemberTypes : a'.memberTypes = a.memberTypes)
    (hasked : ∀ m r, a.memberTypes.lookup m = some r → a'.members[m.index]? = a.members[m.index]?) :
    Followed index a' where
  decls := hc.closed h.decls
  nodes hlook hsite d hd := (h.nodes (hnodes ▸ hlook) hsite d hd).mono hc.grows
  known hlook := h.known (hnodes ▸ hlook)
  members {m r data type} hlook hdata htype d hd := by
    rw [hmemberTypes] at hlook
    rw [hasked m r hlook] at hdata
    exact (h.members hlook hdata htype d hd).mono hc.grows

/-- A question that leaves an arena in which it is known of what has been asked for, all of `S`
included. -/
structure Follows {α : Type} (index : Index) (a : Arena) (question : Resolve α) (S : DeclId → Prop) :
    Prop where
  followed : Followed index (question.run a).2
  grows : ∀ d, a.Asked d → (question.run a).2.Asked d
  taken : ∀ d, S d → index.Taken (question.run a).2 d

theorem Follows.done {answer : α} (h : Followed index a) (hS : ∀ d, S d → index.Taken a d) :
    Follows index a (pure answer : Resolve α) S :=
  ⟨h, fun _ hd => hd, hS⟩

theorem Follows.get_bind {next : Arena → Resolve α} (h : Follows index a (next a) S) :
    Follows index a (get >>= next) S :=
  ⟨h.followed, h.grows, h.taken⟩

theorem Yields.follows (h : Tracked index a w) (hq : Yields index a w question Q)
    (ht : Takes index a question S) : Follows index a question S := by
  obtain ⟨w', hp, -⟩ := hq
  exact ⟨h.followed.covers ht hp.nodes hp.memberTypes fun m r hlook =>
    hp.extends_.members _ (h.ready.faithful.asked hlook), ht.grows, ht.taken⟩

/-- What is known of the answer if all of `S` are untangled is known in a straight arena. -/
theorem Serves.asks (hq : Serves index a w question Q) (hf : Follows index a question S)
    (himp : ∀ answer a' w', (∀ d, S d → index.Untangled d) → Q answer a' w' → Q' answer a' w') :
    Asks index a w question Q' := by
  obtain ⟨w', he, hr, hq⟩ := hq
  exact ⟨w', he, ⟨hr, hf.followed⟩, hf.grows, fun hs =>
    himp _ _ _ (fun d hd => hf.followed.untangled hr.idle hs (hf.taken d hd)) hq⟩

/-- An answer that is worked out and not kept. -/
theorem Yields.asks (h : Tracked index a w) (hq : Yields index a w question Q)
    (ht : Takes index a question S)
    (himp : ∀ answer a' w', (∀ d, S d → index.Untangled d) → Q answer a' w' → Q' answer a' w') :
    Asks index a w question Q' :=
  (hq.serves h.ready).asks (hq.follows h ht) himp

/-! ## Answers that are kept -/

/-- The answer for an annotation of the view may be kept when all has been asked for that the
annotation mentions. -/
theorem Followed.keepNode (h : Followed index a) {node : NodeId} {site : TypeSite}
    (hsite : index.typeSites[node.index]? = some site)
    (htaken : ∀ d, index.Mentions site.scope site.type.names d → index.Taken a d)
    (r : Option TypeId) : Followed index { a with nodes := (node, r) :: a.nodes } where
  decls := h.decls
  nodes {node' r' site'} hlook hsite' d hd := by
    by_cases hnode : node' = node
    · subst hnode
      obtain rfl := Option.some.inj (hsite.symm.trans hsite')
      exact htaken d hd
    · rw [lookup_cons_of_ne hnode] at hlook
      exact h.nodes hlook hsite' d hd
  known {node' r'} hlook := by
    by_cases hnode : node' = node
    · exact hnode ▸ lt_size_of_getElem? hsite
    · rw [lookup_cons_of_ne hnode] at hlook
      exact h.known hlook
  members := h.members

/-- The same for a member. -/
theorem Followed.keepMember (h : Followed index a) {m : MemberId} {data : MemberData}
    (hdata : a.members[m.index]? = some data)
    (htaken : ∀ type, data.type = .written type →
      ∀ d, index.Mentions data.scope type.names d → index.Taken a d) (r : Option TypeId) :
    Followed index { a with memberTypes := (m, r) :: a.memberTypes } where
  decls := h.decls
  nodes := h.nodes
  known := h.known
  members {m' r' data' type} hlook hdata' htype d hd := by
    by_cases hm : m' = m
    · subst hm
      obtain rfl := Option.some.inj (hdata.symm.trans hdata')
      exact htaken type htype d hd
    · rw [lookup_cons_of_ne hm] at hlook
      exact h.members hlook hdata' htype d hd

namespace Resolve

theorem typeOfMember_takes (hm : Marked [] a) (data : MemberData) :
    Takes index a (typeOfMember index data)
      fun d => ∃ type, data.type = .written type ∧ index.Mentions data.scope type.names d := by
  obtain ⟨name, optional, scope, type⟩ := data
  rcases type with type | _ | _
  · refine (resolve_takes hm scope type).imp ?_
    rintro d ⟨type', htype, hd⟩
    obtain rfl := MemberType.written.inj htype
    exact hd
  · exact (intrinsic_takes .any).map.imp fun d ⟨_, htype, _⟩ => nomatch htype
  · exact (Takes.imp (push_takes _) fun d ⟨_, htype, _⟩ => nomatch htype).map

/-- All that the annotation mentions has been asked for when an annotation of the view has been. -/
theorem typeOfNode_follows (h : Tracked index a w) (node : NodeId) :
    Follows index a (typeOfNode index node) fun d => ∃ site,
      index.typeSites[node.index]? = some site ∧ index.Mentions site.scope site.type.names d := by
  refine Follows.get_bind ?_
  rcases hlook : a.nodes.lookup node with _ | r
  · rcases hsite : index.typeSites[node.index]? with _ | site
    · exact .done h.followed fun d ⟨_, hnone, _⟩ => nomatch hnone
    · have hf := (resolve_yields (.site node) h.ready.faithful h.ready.idle site.scope
        site.type).follows h (resolve_takes h.ready.idle site.scope site.type)
      refine ⟨hf.followed.keepNode hsite hf.taken _, hf.grows, ?_⟩
      rintro d ⟨site', hsite', hd⟩
      obtain rfl := Option.some.inj hsite'
      exact hf.taken d hd
  · exact .done h.followed fun d ⟨site, hsite, hd⟩ => h.followed.nodes hlook hsite d hd

/-- The same for the type of a member. -/
theorem memberType_follows (h : Tracked index a w) (m : MemberId) :
    Follows index a (memberType index m) fun d => ∃ data type,
      a.members[m.index]? = some data ∧ data.type = .written type ∧
        index.Mentions data.scope type.names d := by
  refine Follows.get_bind ?_
  rcases hlook : a.memberTypes.lookup m with _ | r
  · refine Follows.get_bind ?_
    rcases hdata : a.members[m.index]? with _ | data
    · exact .done h.followed fun d ⟨_, _, hnone, _⟩ => nomatch hnone
    · have hyields := typeOfMember_yields (.keyword .any) h.ready data
      have hf := hyields.follows h (typeOfMember_takes h.ready.idle data)
      have hkept : ((typeOfMember index data).run a).2.members[m.index]? = some data := by
        obtain ⟨w', hp, -⟩ := hyields
        exact (hp.extends_.members _ (lt_size_of_getElem? hdata)).trans hdata
      refine ⟨hf.followed.keepMember hkept (fun type htype d hd => hf.taken d ⟨type, htype, hd⟩) _,
        hf.grows, ?_⟩
      rintro d ⟨data', type, hdata', htype, hd⟩
      obtain rfl := Option.some.inj hdata'
      exact hf.taken d ⟨type, htype, hd⟩
  · exact .done h.followed fun d ⟨data, type, hdata, htype, hd⟩ =>
      h.followed.members hlook hdata htype d hd

/-- The type of an annotation of the view is what it denotes. -/
theorem typeOfNode_asks (h : Tracked index a w) (node : NodeId) :
    Asks index a w (typeOfNode index node)
      fun r a' w' => Stands a' w' r (meaning index (.site node)) :=
  (typeOfNode_serves h.ready node).asks (typeOfNode_follows h node) fun _ _ _ hu hs =>
    hs fun site hsite d hd => hu d ⟨site, hsite, hd⟩

/-- The type of a member with a name is what its annotation denotes. -/
theorem memberType_asks (h : Tracked index a w) (m : MemberId) :
    Asks index a w (memberType index m) fun r a' w' => ∀ o, FitsMember a w m o →
      Stands a' w' r (meaning index (.member o.owner o.data)) :=
  (memberType_serves h.ready m).asks (memberType_follows h m) fun _ _ _ hu hs o hm =>
    hs o.owner o.data hm fun type htype d hd => hu d ⟨o.data, type, hm.data, htype, hd⟩

end Resolve

end

end ComponentSchema
