import ComponentSchema.Proofs.Checker.RecordedAnswers

/-!
# Making types

`Yields` states what a resolution does: it leaves a faithful arena with the same declarations under
way, and an answer of which more may be said. Each way of making a type yields one that stands for
its outline.

Results.
* `Yields.bind`: resolutions one after the other.
* `push_yields`, `objectType_yields`, `joinMembers_yields`: types made from members.
* `intrinsic_yields`, `builtinJsxElement_yields`: types that there is one of.
-/
namespace ComponentSchema

open Syntax Relation

variable {index : Index} {a a' a'' a₀ : Arena} {w w' w'' w₀ : Naming} {own : TypeOrigin}
variable {scope : ScopeId} {opened : List DeclId} {α β : Type}

/-- An arena after a resolution: faithful, and with the same declarations under way. -/
structure Progress (index : Index) (a : Arena) (w : Naming) (a' : Arena) (w' : Naming) : Prop where
  extends_ : Extends a w a' w'
  faithful : Faithful index a' w'
  resolving : ∀ d, a'.declared.lookup d = some .resolving ↔ a.declared.lookup d = some .resolving
  nodes : a'.nodes = a.nodes
  memberTypes : a'.memberTypes = a.memberTypes

theorem Progress.refl (h : Faithful index a w) : Progress index a w a w :=
  ⟨.refl a w, h, fun _ => Iff.rfl, rfl, rfl⟩

theorem Progress.trans (h : Progress index a w a' w') (h' : Progress index a' w' a'' w'') :
    Progress index a w a'' w'' :=
  ⟨h.extends_.trans h'.extends_, h'.faithful, fun d => (h'.resolving d).trans (h.resolving d),
    h'.nodes.trans h.nodes, h'.memberTypes.trans h.memberTypes⟩

/-- The question leaves a faithful arena and an answer for which `Q` holds. -/
def Yields (index : Index) (a : Arena) (w : Naming) (question : Resolve α)
    (Q : α → Arena → Naming → Prop) : Prop :=
  ∃ w', Progress index a w (question.run a).2 w' ∧ Q (question.run a).1 (question.run a).2 w'

section

variable {question : Resolve α} {Q Q' : α → Arena → Naming → Prop}

theorem Yields.done {answer : α} (h : Faithful index a w) (hq : Q answer a w) :
    Yields index a w (pure answer) Q :=
  ⟨w, .refl h, hq⟩

theorem Yields.imp (h : Yields index a w question Q)
    (himp : ∀ answer a' w', Progress index a w a' w' → Q answer a' w' → Q' answer a' w') :
    Yields index a w question Q' := by
  obtain ⟨w', hp, hq⟩ := h
  exact ⟨w', hp, himp _ _ _ hp hq⟩

theorem Yields.bind {next : α → Resolve β} {R : β → Arena → Naming → Prop}
    (h : Yields index a w question Q)
    (hnext : ∀ answer a' w', Progress index a w a' w' → Q answer a' w' →
      Yields index a' w' (next answer) R) : Yields index a w (question >>= next) R := by
  obtain ⟨w', hp, hq⟩ := h
  obtain ⟨w'', hp', hr⟩ := hnext _ _ _ hp hq
  exact ⟨w'', hp.trans hp', hr⟩

theorem Yields.map {f : α → β} {R : β → Arena → Naming → Prop} (h : Yields index a w question Q)
    (himp : ∀ answer a' w', Q answer a' w' → R (f answer) a' w') :
    Yields index a w (f <$> question) R := by
  obtain ⟨w', hp, hq⟩ := h
  exact ⟨w', hp, himp _ _ _ hq⟩

end

/-! ## Making types and members -/

/-- `a₀` is not after `a`. -/
structure Older (a₀ a : Arena) : Prop where
  types : a₀.types.size ≤ a.types.size
  members : a₀.members.size ≤ a.members.size

theorem Older.refl (a : Arena) : Older a a := ⟨Nat.le_refl _, Nat.le_refl _⟩

theorem Older.progress (h : Older a₀ a) (hp : Progress index a w a' w') : Older a₀ a' :=
  ⟨Nat.le_trans h.types hp.extends_.typesSize, Nat.le_trans h.members hp.extends_.membersSize⟩

/-- Types and members may be added at any time. -/
theorem Faithful.grow (h : Faithful index a w) (he : Extends a w a' w)
    (hintrinsics : a'.intrinsics = a.intrinsics) (hjsx : a'.jsxElement = a.jsxElement)
    (hdeclared : a'.declared = a.declared) (hnodes : a'.nodes = a.nodes)
    (hmembers : a'.memberTypes = a.memberTypes) : Progress index a w a' w := by
  have hiff : ∀ o r, Recorded a' w o r ↔ Recorded a w o r := fun o r =>
    h.recorded_iff he hintrinsics hjsx (by simp [hdeclared]) hnodes hmembers
  refine ⟨he, h.record he (fun o r => (hiff o r).2) (fun o r hr _ => .inl ((hiff o r).1 hr)) ?_,
    by simp [hdeclared], hnodes, hmembers⟩
  intro m r hm
  rw [hmembers] at hm
  exact Nat.lt_of_lt_of_le (h.asked hm) he.membersSize

theorem getElem?_push_of_lt {γ : Type} {items : Array γ} {item : γ} {i : Nat} (h : i < items.size) :
    (items.push item)[i]? = items[i]? := by
  rw [Array.getElem?_push, if_neg (by omega)]

namespace Resolve

theorem run_push (data : TypeData) :
    (push data).run a = (⟨a.types.size⟩, { a with types := a.types.push data }) := rfl

theorem run_pushMember (data : MemberData) :
    (pushMember data).run a = (⟨a.members.size⟩, { a with members := a.members.push data }) := rfl

/-- A type that is made is new and nameless. -/
theorem push_makes (h : Faithful index a w) (data : TypeData) :
    Yields index a w (push data) fun t a' w' =>
      a'.types[t.index]? = some data ∧ w'.type t = none ∧ a.types.size ≤ t.index := by
  have he : Extends a w { a with types := a.types.push data } w :=
    ⟨by simp, Nat.le_refl _, fun i hi => getElem?_push_of_lt hi, fun _ _ => rfl, fun _ _ => rfl,
      fun _ _ => rfl⟩
  have hnone : w.type ⟨a.types.size⟩ = none := by
    rcases hname : w.type ⟨a.types.size⟩ with _ | o
    · rfl
    · exact absurd (h.typeKnown hname) (Nat.lt_irrefl _)
  rw [Yields, run_push]
  exact ⟨w, h.grow he rfl rfl rfl rfl rfl, by simp, hnone, Nat.le_refl _⟩

/-- A type that is made for `own` stands for its outline. -/
theorem push_yields {members : List MemberId} {v : Outline} (h : Faithful index a w)
    (ha : Older a₀ a) (hown : v.origin = own) {P : Prop}
    (hmembers : P → List.Forall₂ (FitsMember a (w.since a₀ own)) members v.members) :
    Yields index a w (push ⟨v.symbol, v.aliasName, v.intrinsic, members⟩)
      fun t a' w' => P → Fits a' (w'.since a₀ own) t v := by
  refine (push_makes h _).imp fun t a' w' hp ⟨htype, hnone, hsize⟩ hP => ⟨?_, members, htype, ?_⟩
  · simp only [Naming.since, hnone, Option.none_or, if_pos (Nat.le_trans ha.types hsize), hown]
  · exact (hmembers hP).imp fun _ _ hf => hf.extend (hp.extends_.since a₀ own)

/-- A type without members that is made for `own` stands for its outline. -/
theorem pushPlain_yields (h : Faithful index a w) (ha : Older a₀ a) (own : TypeOrigin)
    (data : TypeData) (hdata : data.members = []) :
    Yields index a w (push data) fun t a' w' =>
      Fits a' (w'.since a₀ own) t ⟨own, data.symbol, data.aliasName, data.intrinsic, []⟩ := by
  obtain ⟨symbol, aliasName, intrinsic, members⟩ := data
  obtain rfl : members = [] := hdata
  exact (push_yields (v := ⟨own, symbol, aliasName, intrinsic, []⟩) h ha rfl
    fun _ => .nil).imp fun _ _ _ _ hs => hs trivial

theorem pushMember_yields (own : TypeOrigin) (h : Faithful index a w) (ha : Older a₀ a)
    (data : MemberData) :
    Yields index a w (pushMember data)
      fun m a' w' => FitsMember a' (w'.since a₀ own) m ⟨own, data⟩ := by
  have he : Extends a w { a with members := a.members.push data } w :=
    ⟨Nat.le_refl _, by simp, fun _ _ => rfl, fun i hi => getElem?_push_of_lt hi, fun _ _ => rfl,
      fun _ _ => rfl⟩
  have hnone : w.member ⟨a.members.size⟩ = none := by
    rcases hname : w.member ⟨a.members.size⟩ with _ | o
    · rfl
    · exact absurd (h.memberKnown hname) (Nat.lt_irrefl _)
  rw [Yields, run_pushMember]
  exact ⟨w, h.grow he rfl rfl rfl rfl rfl, by simp, by simp [Naming.since, hnone, ha.members]⟩

theorem mapM_pushMember_yields (own : TypeOrigin) (h : Faithful index a w) (ha : Older a₀ a)
    (data : List MemberData) :
    Yields index a w (data.mapM pushMember) fun members a' w' =>
      List.Forall₂ (FitsMember a' (w'.since a₀ own)) members
        (data.map fun data => ⟨own, data⟩) := by
  induction data generalizing a w with
  | nil => exact .done h .nil
  | cons first rest ih =>
    rw [List.mapM_cons]
    refine (pushMember_yields own h ha first).bind fun m a' w' hp hm => ?_
    refine (ih hp.faithful (ha.progress hp)).bind fun members a'' w'' hp' hrest => ?_
    exact .done hp'.faithful (.cons (hm.extend (hp'.extends_.since a₀ own)) hrest)

theorem objectType_yields (own : TypeOrigin) (h : Faithful index a w) (ha : Older a₀ a)
    (symbol : TypeSymbol) (aliasName : Option String) (scope : ScopeId)
    (members : List TypeMember) :
    Yields index a w (objectType symbol aliasName scope members) fun t a' w' =>
      Fits a' (w'.since a₀ own) t (Outline.object own symbol aliasName scope members) := by
  refine (mapM_pushMember_yields own h ha _).bind fun ids a' w' hp hids => ?_
  exact (push_yields (v := Outline.object own symbol aliasName scope members) hp.faithful
    (ha.progress hp) rfl fun _ => hids).imp fun _ _ _ _ hs => hs trivial

theorem anonymous_yields (own : TypeOrigin) (h : Faithful index a w) (ha : Older a₀ a)
    (aliasName : Option String) : Yields index a w (anonymous aliasName) fun t a' w' =>
      Fits a' (w'.since a₀ own) t (Outline.plain own (some TypeSymbol.anonymous) aliasName) :=
  pushPlain_yields h ha own _ rfl

end Resolve

/-! ## Answers that are kept -/

theorem yields_get_bind {next : Arena → Resolve α} {Q : α → Arena → Naming → Prop}
    (h : Yields index a w (next a) Q) : Yields index a w (get >>= next) Q := h

/-- An update of an arena that neither makes anything nor takes up or settles a declaration. -/
structure Quiet (update : Arena → Arena) : Prop where
  types : ∀ a, (update a).types = a.types
  members : ∀ a, (update a).members = a.members
  declared : ∀ a, (update a).declared = a.declared

/-- A type may be made and kept as the answer for `own`. -/
theorem Yields.keep (own : TypeOrigin) {question : Resolve TypeId} (update : TypeId → Arena → Arena)
    {v : Outline} (hfaithful : Faithful index a w)
    (h : Yields index a w question fun t a' w' => Fits a' (w'.since a own) t v)
    (hfresh : ∀ w r, ¬ Recorded (question.run a).2 w own r)
    (hv : meaning index own = some v) (hown : own.Untangled index)
    (hquiet : ∀ t, Quiet (update t)) (hnodes : ∀ t a, (update t a).nodes = a.nodes)
    (hmemberTypes : ∀ t a, (update t a).memberTypes = a.memberTypes)
    (hrecorded : ∀ t w o r, Recorded (update t (question.run a).2) w o r ↔
      o = own ∧ r = some t ∨ Recorded (question.run a).2 w o r) :
    Yields index a w (question >>= fun t => modify (update t) >>= fun _ => pure t)
      fun t a' w' => Fits a' w' t v := by
  obtain ⟨w₁, hp, hfits⟩ := h
  have hmade : Stands (question.run a).2 (w₁.since a own) (some (question.run a).1)
      (meaning index own) := hv ▸ .some hfits
  obtain ⟨w₂, he, hf, hstands⟩ := hp.faithful.answer hp.extends_ (hfresh w₁) (fun _ => hmade)
    (hrecorded _ w₁) ((hquiet _).types _) ((hquiet _).members _)
    (fun m r hm => hfaithful.asked (by rwa [hmemberTypes, hp.memberTypes] at hm))
  refine ⟨w₂, ⟨he, hf, fun d => ?_, (hnodes _ _).trans hp.nodes,
    (hmemberTypes _ _).trans hp.memberTypes⟩, ?_⟩
  · exact (iff_of_eq (congrArg (List.lookup d · = _) ((hquiet _).declared _))).trans (hp.resolving d)
  · have hs := hstands hown
    rw [hv] at hs
    cases hs with
    | some hs => exact hs

namespace Resolve

theorem intrinsic_yields (h : Faithful index a w) (keyword : KeywordType) :
    Yields index a w (intrinsic keyword) fun t a' w' => Fits a' w' t (Outline.keyword keyword) := by
  refine yields_get_bind ?_
  rcases hlook : a.intrinsics.lookup keyword with _ | t
  · refine Yields.keep (.keyword keyword)
      (fun t arena => { arena with intrinsics := (keyword, t) :: arena.intrinsics }) h
      (pushPlain_yields h (.refl a) _ _ rfl) ?_ rfl trivial
      (fun _ => ⟨fun _ => rfl, fun _ => rfl, fun _ => rfl⟩) (fun _ _ => rfl) (fun _ _ => rfl)
      fun t w o r => recorded_intrinsics hlook
    rintro w' r ⟨t, ht, -⟩
    cases hlook.symm.trans ht
  · have hs := h.answers (o := .keyword keyword) ⟨t, hlook, rfl⟩ trivial
    cases hs with
    | some hs => exact .done h hs

theorem builtinJsxElement_yields (h : Faithful index a w) :
    Yields index a w builtinJsxElement fun t a' w' => Fits a' w' t Outline.jsxElement := by
  refine yields_get_bind ?_
  rcases hlook : a.jsxElement with _ | t
  · refine Yields.keep .jsxElement (fun t arena => { arena with jsxElement := some t }) h
      (pushPlain_yields h (.refl a) _ _ rfl) ?_ rfl trivial
      (fun _ => ⟨fun _ => rfl, fun _ => rfl, fun _ => rfl⟩) (fun _ _ => rfl) (fun _ _ => rfl)
      fun t w o r => recorded_jsxElement hlook
    rintro w' r ⟨t, ht, -⟩
    cases hlook.symm.trans ht
  · have hs := h.answers (o := .jsxElement) ⟨t, hlook, rfl⟩ trivial
    cases hs with
    | some hs => exact .done h hs

end Resolve

/-! ## Joining members -/

theorem forall₂_firstOfEachName {γ δ : Type} {R : γ → δ → Prop} {nameL : γ → String}
    {nameR : δ → String} (hname : ∀ x y, R x y → nameL x = nameR y) {xs : List γ} {ys : List δ}
    (h : List.Forall₂ R xs ys) (seen : List String) :
    List.Forall₂ R (firstOfEachName nameL seen xs) (firstOfEachName nameR seen ys) := by
  induction h generalizing seen with
  | nil => exact .nil
  | cons hxy _ ih =>
    rw [firstOfEachName, firstOfEachName, hname _ _ hxy]
    split
    · exact ih seen
    · exact .cons hxy (ih _)

theorem Resolve.joinMembers_yields {types : List TypeId} {outlines : List Outline} {P : Prop}
    (h : Faithful index a w) (htypes : P → List.Forall₂ (Fits a w₀) types outlines) :
    Yields index a w (joinMembers types) fun members a' w' => a' = a ∧ w' = w ∧
      (P → List.Forall₂ (FitsMember a w₀) members
        (firstOfEachName (·.data.name) [] (outlines.flatMap (·.members)))) := by
  refine yields_get_bind (.done h ⟨rfl, rfl, fun hP => ?_⟩)
  refine forall₂_firstOfEachName (fun _ _ hf => congrArg (·.name) hf.memberData) ?_ []
  refine List.rel_flatMap (htypes hP) fun _ _ hf => ?_
  obtain ⟨members, hdata, hmembers⟩ := hf.typeData
  exact hdata ▸ hmembers

end ComponentSchema
