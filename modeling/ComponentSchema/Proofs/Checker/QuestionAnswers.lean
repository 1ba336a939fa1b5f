import ComponentSchema.Program.Returns
import ComponentSchema.Proofs.Checker.ResolutionAnswers

/-!
# What the questions of a program answer

Between two questions no declaration is under way. Each question that a program is asked keeps its
arena faithful, whatever it is about; the type of an untangled annotation is what the annotation
denotes, and so is the type of a member with a name.

Results.
* `typeOfNode_serves`, `memberType_serves`: the two questions whose answers are kept.
* `returnTypeOf_serves`: inferred return types.
-/
namespace ComponentSchema

open Syntax Relation

variable {index : Index} {a a' a'' : Arena} {w w' w'' : Naming} {scope : ScopeId} {α β : Type}

/-- What holds of an arena between two questions. -/
structure Ready (index : Index) (a : Arena) (w : Naming) : Prop where
  faithful : Faithful index a w
  idle : Marked [] a

/-- The question leaves an arena that is ready for the next one, and an answer for which `Q` holds. -/
def Serves (index : Index) (a : Arena) (w : Naming) (question : Resolve α)
    (Q : α → Arena → Naming → Prop) : Prop :=
  ∃ w', Extends a w (question.run a).2 w' ∧ Ready index (question.run a).2 w' ∧
    Q (question.run a).1 (question.run a).2 w'

section

variable {question : Resolve α} {Q Q' : α → Arena → Naming → Prop}

theorem Serves.done {answer : α} (h : Ready index a w) (hq : Q answer a w) :
    Serves index a w (pure answer) Q :=
  ⟨w, .refl a w, h, hq⟩

theorem Serves.imp (h : Serves index a w question Q)
    (himp : ∀ answer a' w', Extends a w a' w' → Q answer a' w' → Q' answer a' w') :
    Serves index a w question Q' := by
  obtain ⟨w', he, hr, hq⟩ := h
  exact ⟨w', he, hr, himp _ _ _ he hq⟩

theorem Serves.bind {next : α → Resolve β} {R : β → Arena → Naming → Prop}
    (h : Serves index a w question Q)
    (hnext : ∀ answer a' w', Extends a w a' w' → Ready index a' w' → Q answer a' w' →
      Serves index a' w' (next answer) R) : Serves index a w (question >>= next) R := by
  obtain ⟨w', he, hr, hq⟩ := h
  obtain ⟨w'', he', hr', hq'⟩ := hnext _ _ _ he hr hq
  exact ⟨w'', he.trans he', hr', hq'⟩

theorem Serves.map {f : α → β} {R : β → Arena → Naming → Prop} (h : Serves index a w question Q)
    (himp : ∀ answer a' w', Q answer a' w' → R (f answer) a' w') :
    Serves index a w (f <$> question) R := by
  obtain ⟨w', he, hr, hq⟩ := h
  exact ⟨w', he, hr, himp _ _ _ hq⟩

theorem Serves.get_bind {next : Arena → Resolve α} {Q : α → Arena → Naming → Prop}
    (h : Serves index a w (next a) Q) : Serves index a w (get >>= next) Q := h

theorem Yields.serves (h : Ready index a w) (hq : Yields index a w question Q) :
    Serves index a w question Q := by
  obtain ⟨w', hp, hq⟩ := hq
  exact ⟨w', hp.extends_, ⟨hp.faithful, h.idle.progress hp⟩, hq⟩

/-- An answer worked out for `own` may be kept in a cache. -/
theorem Yields.cache (own : TypeOrigin) {question : Resolve (Option TypeId)}
    (update : Option TypeId → Arena → Arena) (h : Ready index a w)
    (hq : Yields index a w question fun r a' w' => own.Untangled index →
      Stands a' (w'.since a own) r (meaning index own))
    (hfresh : ∀ w', Progress index a w (question.run a).2 w' →
      ∀ r, ¬ Recorded (question.run a).2 w' own r)
    (hrecorded : ∀ w', Progress index a w (question.run a).2 w' → ∀ r o r',
      Recorded (update r (question.run a).2) w' o r' ↔
        o = own ∧ r' = r ∨ Recorded (question.run a).2 w' o r')
    (hquiet : ∀ r, Quiet (update r))
    (hasked : ∀ w', Progress index a w (question.run a).2 w' → ∀ r m r',
      (update r (question.run a).2).memberTypes.lookup m = some r' → m.index < a.members.size) :
    Serves index a w (question >>= fun r => modify (update r) >>= fun _ => pure r)
      fun r a' w' => own.Untangled index → Stands a' w' r (meaning index own) := by
  obtain ⟨w₁, hp, hs⟩ := hq
  obtain ⟨w₂, he, hf, hstands⟩ := hp.faithful.answer hp.extends_ (hfresh w₁ hp) hs
    (hrecorded w₁ hp _) ((hquiet _).types _) ((hquiet _).members _) (hasked w₁ hp _)
  refine ⟨w₂, he, ⟨hf, fun d => ?_⟩, hstands⟩
  exact (iff_of_eq (congrArg (List.lookup d · = _) ((hquiet _).declared _))).trans
    ((hp.resolving d).trans (h.idle d))

end

namespace Resolve

/-- The type of an untangled annotation of the view is what it denotes. -/
theorem typeOfNode_serves (h : Ready index a w) (node : NodeId) :
    Serves index a w (typeOfNode index node) fun r a' w' =>
      (TypeOrigin.site node).Untangled index → Stands a' w' r (meaning index (.site node)) := by
  refine Serves.get_bind ?_
  rcases hlook : a.nodes.lookup node with _ | r
  · rcases hsite : index.typeSites[node.index]? with _ | site
    · refine .done h fun _ => ?_
      rw [meaning, hsite]
      exact .none
    · refine Yields.cache (.site node)
        (fun r arena => { arena with nodes := (node, r) :: arena.nodes }) h ?_ ?_ ?_
        (fun _ => ⟨fun _ => rfl, fun _ => rfl, fun _ => rfl⟩) ?_
      · refine (resolve_yields (.site node) h.faithful h.idle site.scope site.type).imp
          fun r a' w' _ hs hu => ?_
        rw [meaning, hsite]
        exact hs (hu site hsite)
      · intro w' hp r hr
        rw [Recorded, hp.nodes, hlook] at hr
        cases hr
      · intro w' hp r o r'
        exact recorded_nodes (by rw [hp.nodes, hlook])
      · intro w' hp r m r' hm
        rw [hp.memberTypes] at hm
        exact h.faithful.asked hm
  · exact .done h fun hu => h.faithful.answers (o := .site node) hlook hu

theorem typeOfMember_yields (owner : TypeOrigin) (h : Ready index a w) (data : MemberData) :
    Yields index a w (typeOfMember index data) fun r a' w' =>
      (TypeOrigin.member owner data).Untangled index →
        Stands a' (w'.since a (.member owner data)) r (meaning index (.member owner data)) := by
  obtain ⟨name, optional, scope, type⟩ := data
  rcases type with type | _ | _
  · exact (resolve_yields (.member owner _) h.faithful h.idle scope type).imp
      fun _ _ _ _ hs hu => hs (hu type rfl)
  · exact (intrinsic_yields h.faithful .any).map fun _ a' w' hfits _ => .some (hfits.since a _)
  · exact (anonymous_yields (.member owner _) h.faithful (.refl a) none).map
      fun _ _ _ hfits _ => .some hfits

/-- The members in a cache are in the arena, and so are those in it with one more. -/
theorem asked_cons {m : MemberId} {r : Option TypeId} {entries : List (MemberId × Option TypeId)}
    {size : Nat} (hm : m.index < size)
    (h : ∀ m r, entries.lookup m = some r → m.index < size) :
    ∀ m' r', ((m, r) :: entries).lookup m' = some r' → m'.index < size := by
  intro m' r' hlook
  by_cases hmm : m' = m
  · exact hmm ▸ hm
  · rw [lookup_cons_of_ne hmm] at hlook
    exact h m' r' hlook

/-- A member without a name may be asked for its type; nothing is said of the answer. -/
theorem cacheNameless_serves {m : MemberId} {question : Resolve (Option TypeId)}
    {Q : Option TypeId → Arena → Naming → Prop} (h : Ready index a w) (hname : w.member m = none)
    (hm : m.index < a.members.size) (hq : Yields index a w question Q) :
    Serves index a w
      (question >>= fun r =>
        modify (fun arena => { arena with memberTypes := (m, r) :: arena.memberTypes }) >>=
          fun _ => pure r) fun _ _ _ => True := by
  obtain ⟨w', hp, -⟩ := hq
  have hnameless : w'.member m = none := (hp.extends_.memberNames m hm).trans hname
  have hsame : Extends (question.run a).2 w' { (question.run a).2 with
      memberTypes := (m, (question.run a).1) :: (question.run a).2.memberTypes } w' :=
    ⟨Nat.le_refl _, Nat.le_refl _, fun _ _ => rfl, fun _ _ => rfl, fun _ _ => rfl, fun _ _ => rfl⟩
  refine ⟨w', hp.extends_.trans hsame, ⟨?_, fun d => (hp.resolving d).trans (h.idle d)⟩, trivial⟩
  refine hp.faithful.record hsame (fun o r => (recorded_nameless hnameless).2)
    (fun o r hr _ => .inl ((recorded_nameless hnameless).1 hr)) ?_
  exact asked_cons (Nat.lt_of_lt_of_le hm hp.extends_.membersSize) fun m r => hp.faithful.asked

/-- The type of a member with a name is what its annotation denotes. -/
theorem memberType_serves (h : Ready index a w) (m : MemberId) :
    Serves index a w (memberType index m) fun r a' w' => ∀ owner data,
      FitsMember a w m ⟨owner, data⟩ → (TypeOrigin.member owner data).Untangled index →
        Stands a' w' r (meaning index (.member owner data)) := by
  refine Serves.get_bind ?_
  rcases hlook : a.memberTypes.lookup m with _ | r
  · refine Serves.get_bind ?_
    rcases hdata : a.members[m.index]? with _ | data
    · refine .done h fun owner data hf => ?_
      cases hdata.symm.trans hf.data
    · have hm := lt_size_of_getElem? hdata
      rcases hname : w.member m with _ | owner
      · refine (cacheNameless_serves h hname hm (typeOfMember_yields .jsxElement h data)).imp
          fun r a' w' _ _ owner data' hf => ?_
        cases hname.symm.trans hf.owner
      · have hf : FitsMember a w m ⟨owner, data⟩ := ⟨hdata, hname⟩
        refine (Yields.cache (.member owner data)
          (fun r arena => { arena with memberTypes := (m, r) :: arena.memberTypes }) h
          (typeOfMember_yields owner h data) ?_ ?_
          (fun _ => ⟨fun _ => rfl, fun _ => rfl, fun _ => rfl⟩) ?_).imp
            fun r a' w' _ hs owner' data' hf' => ?_
        · rintro w' hp r ⟨m', hown, hdata', hlook'⟩
          obtain rfl := hp.faithful.memberUnique (hf.extend hp.extends_) ⟨hdata', hown⟩
          rw [hp.memberTypes, hlook] at hlook'
          cases hlook'
        · intro w' hp r o r'
          exact recorded_memberTypes (hf.extend hp.extends_) (by rw [hp.memberTypes, hlook])
        · intro w' hp r
          exact asked_cons hm fun m r => hp.memberTypes ▸ h.faithful.asked
        · obtain rfl := Option.some.inj (hname.symm.trans hf'.owner)
          obtain rfl := Option.some.inj (hdata.symm.trans hf'.data)
          exact hs
  · exact .done h fun owner data hf hu =>
      h.faithful.answers (o := .member owner data) ⟨m, hf.owner, hf.data, hlook⟩ hu

/-! ## Inferred return types -/

theorem jsxElement_serves (h : Ready index a w) (scope : ScopeId) :
    Serves index a w (jsxElement index scope) fun _ _ _ => True := by
  unfold jsxElement
  have hd : ∀ d, index.lookup scope jsxElementSegments = some d →
      Resolves index [] (declared index) (declMeaning index) d :=
    fun d _ => declared_resolves index d
  exact Yields.serves h ((resolveName_yields h.faithful h.idle hd).imp fun _ _ _ _ _ => trivial)

theorem inferCast_serves (h : Ready index a w) (type : TypeExpr) :
    Serves index a w (inferCast index scope type) fun _ _ _ => True := by
  have hresolve := resolve_yields .jsxElement h.faithful h.idle scope type
  refine (Yields.serves h hresolve).bind fun r _ _ _ h' _ => ?_
  cases r with
  | none => exact .done h' trivial
  | some id => exact .done h' trivial

theorem inferIntrinsic_serves (h : Ready index a w) (keyword : KeywordType) :
    Serves index a w (Inferred.type <$> intrinsic keyword) fun _ _ _ => True :=
  Yields.serves h ((intrinsic_yields h.faithful keyword).map fun _ _ _ _ => trivial)

theorem inferExpr_serves (h : Ready index a w) (value : Expr) :
    Serves index a w (inferExpr index scope value) fun _ _ _ => True := by
  fun_induction inferExpr index scope value generalizing a w with
  | case1 | case3 | case4 | case5 | case17 => exact .done h trivial
  | case2 inner ih | case7 _ inner ih | case10 inner ih | case11 inner ih | case12 inner ih =>
    exact ih h
  | case6 _ left right ih ih' | case8 left right ih ih' =>
    exact (ih h).bind fun _ _ _ _ h' _ => (ih' h').bind fun _ _ _ _ h'' _ => .done h'' trivial
  | case9 _ type => exact inferCast_serves h type
  | case13 | case14 | case15 | case16 => exact inferIntrinsic_serves h _

theorem inferReturned_serves (h : Ready index a w) (value : Option Expr) :
    Serves index a w (inferReturned index scope value) fun _ _ _ => True := by
  cases value with
  | none => exact .done h trivial
  | some value => exact inferExpr_serves h value

theorem inferAny_serves (h : Ready index a w) (known : Inferred) (values : List (Option Expr)) :
    Serves index a w
      (values.foldlM (fun known value => return known.combine (← inferReturned index scope value))
        known) fun _ _ _ => True := by
  induction values generalizing a w known with
  | nil => exact .done h trivial
  | cons value rest ih =>
    rw [List.foldlM_cons]
    refine Serves.bind ((inferReturned_serves h value).bind fun other _ _ _ h' _ =>
      .done (Q := fun _ _ _ => True) h' trivial) fun _ _ _ _ h' _ => ih h' _

theorem inferredType_serves (h : Ready index a w) (inferred : Inferred) :
    Serves index a w (inferredType index scope inferred) fun _ _ _ => True := by
  cases inferred with
  | jsx => exact jsxElement_serves h scope
  | nullish | type | unknown => exact .done h trivial

/-- A return type may be inferred at any time; nothing is said of the answer. -/
theorem returnTypeOf_serves (h : Ready index a w) (function : FunctionId) :
    Serves index a w (returnTypeOf index function) fun _ _ _ => True := by
  unfold returnTypeOf
  split
  · exact .done h trivial
  · split
    · exact .done h trivial
    · split
      · exact .done h trivial
      · rename_i site _ _ body _
        cases body with
        | expression value =>
          exact (inferExpr_serves h value).bind fun _ _ _ _ h' _ => inferredType_serves h' _
        | block statements =>
          unfold inferReturn
          split
          · cases ‹Body.block statements = _›
          · split
            · exact Yields.serves h ((intrinsic_yields h.faithful .void).map fun _ _ _ _ => trivial)
            · exact (inferAny_serves h _ _).bind fun _ _ _ _ h' _ => inferredType_serves h' _

end Resolve

end ComponentSchema
