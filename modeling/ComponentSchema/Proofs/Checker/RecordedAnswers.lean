import ComponentSchema.Proofs.Checker.ArenaNaming

/-!
# Recording an answer

An answer that was worked out from a faithful arena may be recorded in it. The type that it is and
the members made for it then get their names: they come from what was asked about. Until then nothing
came from there, so the names are theirs alone.

Results.
* `recorded_intrinsics`, `recorded_jsxElement`, `recorded_declared`, `recorded_nodes`,
  `recorded_memberTypes`: what each of the caches records.
* `Answered.faithful_adopt`: the arena is faithful with the new names.
* `Faithful.answer`: the same for answers of every kind.
-/
namespace ComponentSchema

open Syntax

variable {index : Index} {a a' a₀ : Arena} {w w' w₀ : Naming} {t : TypeId} {m m' : MemberId}
variable {own o : TypeOrigin} {v : Outline} {r r' : Option TypeId}

/-! ## What the caches record -/

section

variable {κ ν : Type} [DecidableEq κ] {entries : List (κ × ν)} {key key' : κ} {value value' : ν}

theorem lookup_cons_of_ne (h : key' ≠ key) :
    ((key, value) :: entries).lookup key' = entries.lookup key' := by
  rw [List.lookup_cons, beq_eq_false_iff_ne.2 h]

theorem lookup_cons_iff (h : entries.lookup key = none) :
    ((key, value) :: entries).lookup key' = some value' ↔
      key' = key ∧ value' = value ∨ entries.lookup key' = some value' := by
  by_cases hk : key' = key
  · subst hk
    rw [List.lookup_cons_self, h]
    simp [eq_comm]
  · rw [lookup_cons_of_ne hk]
    simp [hk]

theorem mem_of_lookup (h : entries.lookup key = some value) : (key, value) ∈ entries := by
  obtain ⟨before, after, rfl, -⟩ := List.lookup_eq_some_iff.1 h
  simp

end

theorem recorded_intrinsics {keyword : KeywordType} (h : a.intrinsics.lookup keyword = none) :
    Recorded { a with intrinsics := (keyword, t) :: a.intrinsics } w o r ↔
      o = .keyword keyword ∧ r = some t ∨ Recorded a w o r := by
  cases o with
  | keyword other =>
    simp only [Recorded, lookup_cons_iff h, TypeOrigin.keyword.injEq]
    constructor
    · rintro ⟨t', ⟨rfl, rfl⟩ | ht', rfl⟩
      · exact .inl ⟨rfl, rfl⟩
      · exact .inr ⟨t', ht', rfl⟩
    · rintro (⟨rfl, rfl⟩ | ⟨t', ht', rfl⟩)
      · exact ⟨t, .inl ⟨rfl, rfl⟩, rfl⟩
      · exact ⟨t', .inr ht', rfl⟩
  | jsxElement | declared | site | member => simp [Recorded]

theorem recorded_jsxElement (h : a.jsxElement = none) :
    Recorded { a with jsxElement := some t } w o r ↔
      o = .jsxElement ∧ r = some t ∨ Recorded a w o r := by
  cases o with
  | jsxElement => simp [Recorded, h]
  | keyword | declared | site | member => simp [Recorded]

theorem recorded_declared {d : DeclId} (h : a.declared.lookup d = some .resolving) :
    Recorded { a with declared := (d, .done r) :: a.declared } w o r' ↔
      o = .declared d ∧ r' = r ∨ Recorded a w o r' := by
  cases o with
  | declared e =>
    simp only [Recorded, TypeOrigin.declared.injEq]
    by_cases he : e = d
    · simp [he, h, eq_comm]
    · simp [he, lookup_cons_of_ne he]
  | keyword | jsxElement | site | member => simp [Recorded]

theorem recorded_nodes {node : NodeId} (h : a.nodes.lookup node = none) :
    Recorded { a with nodes := (node, r) :: a.nodes } w o r' ↔
      o = .site node ∧ r' = r ∨ Recorded a w o r' := by
  cases o with
  | site other => simp only [Recorded, lookup_cons_iff h, TypeOrigin.site.injEq]
  | keyword | jsxElement | declared | member => simp [Recorded]

theorem recorded_memberTypes {owner : TypeOrigin} {data : MemberData}
    (hm : FitsMember a w m ⟨owner, data⟩)
    (h : a.memberTypes.lookup m = none) :
    Recorded { a with memberTypes := (m, r) :: a.memberTypes } w o r' ↔
      o = .member owner data ∧ r' = r ∨ Recorded a w o r' := by
  cases o with
  | member owner' data' =>
    simp only [Recorded, lookup_cons_iff h, TypeOrigin.member.injEq]
    constructor
    · rintro ⟨m', howner, hdata, ⟨rfl, rfl⟩ | hlook⟩
      · obtain rfl := Option.some.inj (howner.symm.trans hm.owner)
        obtain rfl := Option.some.inj (hdata.symm.trans hm.data)
        exact .inl ⟨⟨rfl, rfl⟩, rfl⟩
      · exact .inr ⟨m', howner, hdata, hlook⟩
    · rintro (⟨⟨rfl, rfl⟩, rfl⟩ | ⟨m', howner, hdata, hlook⟩)
      · exact ⟨m, hm.owner, hm.data, .inl ⟨rfl, rfl⟩⟩
      · exact ⟨m', howner, hdata, .inr hlook⟩
  | keyword | jsxElement | declared | site => simp [Recorded]

/-- An answer about a nameless member is recorded for no origin. -/
theorem recorded_nameless (hm : w.member m = none) :
    Recorded { a with memberTypes := (m, r) :: a.memberTypes } w o r' ↔ Recorded a w o r' := by
  cases o with
  | member owner data =>
    simp only [Recorded]
    refine exists_congr fun m' => and_congr_right fun howner => ?_
    have hne : m' ≠ m := by
      rintro rfl
      rw [hm] at howner
      cases howner
    rw [lookup_cons_of_ne hne]
  | keyword | jsxElement | declared | site => simp [Recorded]

/-! ## Names for an answer -/

theorem exists_fitsMember {members : List MemberId} {os : List OutlineMember}
    (h : List.Forall₂ (FitsMember a w) members os) (hm : m ∈ members) :
    ∃ o ∈ os, FitsMember a w m o := by
  induction h with
  | nil => cases hm
  | cons hfit _ ih =>
    rcases List.mem_cons.1 hm with rfl | hm
    · exact ⟨_, List.mem_cons_self .., hfit⟩
    · obtain ⟨o, ho, hfit⟩ := ih hm
      exact ⟨o, List.mem_cons_of_mem _ ho, hfit⟩

/-- Among members of different names there are no two alike. -/
theorem eq_of_fitsMember {members : List MemberId} {os : List OutlineMember}
    (h : List.Forall₂ (FitsMember a w) members os) (hnodup : (os.map (·.data.name)).Nodup)
    (hm : m ∈ members) (hm' : m' ∈ members)
    (hdata : a.members[m.index]? = a.members[m'.index]?) : m = m' := by
  have hname : ∀ {m m' o o'}, FitsMember a w m o → FitsMember a w m' o' →
      a.members[m.index]? = a.members[m'.index]? → o.data.name = o'.data.name := by
    intro m m' o o' hm hm' hdata
    rw [hm.data, hm'.data] at hdata
    rw [Option.some.inj hdata]
  induction h with
  | nil => cases hm
  | cons hfit hrest ih =>
    rw [List.map_cons, List.nodup_cons] at hnodup
    rcases List.mem_cons.1 hm with rfl | htail <;> rcases List.mem_cons.1 hm' with rfl | htail'
    · rfl
    · obtain ⟨o, ho, hfit'⟩ := exists_fitsMember hrest htail'
      exact absurd (List.mem_map.2 ⟨o, ho, hname hfit' hfit hdata.symm⟩) hnodup.1
    · obtain ⟨o, ho, hfit'⟩ := exists_fitsMember hrest htail
      exact absurd (List.mem_map.2 ⟨o, ho, hname hfit' hfit hdata⟩) hnodup.1
    · exact ih hnodup.2 htail htail'

/-- The naming by which a type and its members have the names that they get by `since`. -/
def Naming.adopt (w : Naming) (a₀ : Arena) (own : TypeOrigin) (t : TypeId)
    (members : List MemberId) : Naming where
  type x := if x = t then (w.since a₀ own).type x else w.type x
  member x := if x ∈ members then (w.since a₀ own).member x else w.member x

section

variable {members : List MemberId}

theorem Naming.adopt_type (x : TypeId) : (w.adopt a₀ own t members).type x = w.type x ∨
    w.type x = none ∧ (w.adopt a₀ own t members).type x = some own ∧ x = t ∧
      a₀.types.size ≤ x.index := by
  by_cases hx : x = t
  · rcases ho : w.type x with _ | o
    · by_cases hsize : a₀.types.size ≤ x.index
      · exact .inr ⟨rfl, by simp [adopt, since, hx ▸ ho, hx, hx ▸ hsize], hx, hsize⟩
      · exact .inl (by simp [adopt, since, hx ▸ ho, hx, hx ▸ hsize])
    · exact .inl (by simp [adopt, since, hx ▸ ho, hx])
  · exact .inl (if_neg hx)

theorem Naming.adopt_member (x : MemberId) : (w.adopt a₀ own t members).member x = w.member x ∨
    w.member x = none ∧ (w.adopt a₀ own t members).member x = some own ∧ x ∈ members ∧
      a₀.members.size ≤ x.index := by
  by_cases hx : x ∈ members
  · rcases ho : w.member x with _ | o
    · by_cases hsize : a₀.members.size ≤ x.index
      · exact .inr ⟨rfl, by simp [adopt, since, ho, hx, hsize], hx, hsize⟩
      · exact .inl (by simp [adopt, since, ho, hx, hsize])
    · exact .inl (by simp [adopt, since, ho, hx])
  · exact .inl (if_neg hx)

end

/-- What has a name in one naming has it in another. -/
structure Naming.Keeps (w w' : Naming) : Prop where
  type : ∀ {t o}, w.type t = some o → w'.type t = some o
  member : ∀ {m o}, w.member m = some o → w'.member m = some o

theorem Naming.keeps_adopt (w : Naming) (a₀ : Arena) (own : TypeOrigin) (t : TypeId)
    (members : List MemberId) : w.Keeps (w.adopt a₀ own t members) where
  type {x o} hx := by
    rcases w.adopt_type x with h | ⟨h, -⟩
    · exact h.trans hx
    · rw [h] at hx
      cases hx
  member {x o} hx := by
    rcases w.adopt_member x with h | ⟨h, -⟩
    · exact h.trans hx
    · rw [h] at hx
      cases hx

theorem Extends.adopt (h : Extends a₀ w₀ a w) (own : TypeOrigin) (t : TypeId)
    (members : List MemberId) : Extends a₀ w₀ a (w.adopt a₀ own t members) where
  typesSize := h.typesSize
  membersSize := h.membersSize
  types := h.types
  members := h.members
  typeNames x hx := by
    rcases w.adopt_type x with hsame | ⟨-, -, -, hsize⟩
    · exact hsame.trans (h.typeNames x hx)
    · omega
  memberNames x hx := by
    rcases w.adopt_member x with hsame | ⟨-, -, -, hsize⟩
    · exact hsame.trans (h.memberNames x hx)
    · omega

theorem FitsMember.keep {o : OutlineMember} (h : FitsMember a w m o) (hk : w.Keeps w') :
    FitsMember a w' m o :=
  ⟨h.data, hk.member h.owner⟩

theorem Stands.keep {v : Option Outline} (h : Stands a w r v) (hk : w.Keeps w') :
    Stands a w' r v := by
  refine h.imp fun t v hf => ?_
  obtain ⟨members, htype, hmembers⟩ := hf.shown
  exact ⟨hk.type hf.origin, members, htype, hmembers.imp fun _ _ h => h.keep hk⟩

theorem Recorded.keep (h : Recorded a w o r) (hk : w.Keeps w') : Recorded a w' o r := by
  cases o with
  | member owner data =>
    obtain ⟨m, hown, hm⟩ := h
    exact ⟨m, hk.member hown, hm⟩
  | keyword | jsxElement | declared | site => exact h

/-- A type that stood for an outline with the help of nameless members stands for it when it and
they have got their names. -/
theorem Fits.adopt {members : List MemberId} (h : Fits a (w.since a₀ own) t v)
    (htype : a.types[t.index]? = some ⟨v.symbol, v.aliasName, v.intrinsic, members⟩) :
    Fits a (w.adopt a₀ own t members) t v := by
  obtain ⟨members', htype', hmembers⟩ := h.shown
  obtain rfl : members = members' := by
    rw [htype] at htype'
    exact (TypeData.mk.inj (Option.some.inj htype')).2.2.2
  refine ⟨(if_pos rfl).trans h.origin, members, htype, ?_⟩
  have hall := (List.forall₂_and_left (p := (· ∈ members)) members v.members).2
    ⟨fun _ hm => hm, hmembers⟩
  exact hall.imp fun _ _ ⟨hm, hf⟩ => ⟨hf.data, (if_pos hm).trans hf.owner⟩

/-- An arena `a'` that differs from the faithful `a` by an answer, the type `t` for `own`, which
stands for what `own` denotes with the help of what was made for it since `a₀`. -/
structure Answered (index : Index) (a₀ a a' : Arena) (w : Naming) (own : TypeOrigin) (t : TypeId)
    (v : Outline) (members : List MemberId) : Prop where
  faithful : Faithful index a w
  older : a₀.members.size ≤ a.members.size
  fresh : ∀ r, ¬ Recorded a w own r
  denotes : meaning index own = some v
  fits : Fits a (w.since a₀ own) t v
  shown : a.types[t.index]? = some ⟨v.symbol, v.aliasName, v.intrinsic, members⟩
  sameTypes : a'.types = a.types
  sameMembers : a'.members = a.members
  recorded : ∀ o r, Recorded a' w o r ↔ o = own ∧ r = some t ∨ Recorded a w o r
  asked : ∀ m r, a'.memberTypes.lookup m = some r → m.index < a₀.members.size

namespace Answered

variable {members : List MemberId}

theorem typeFresh (h : Answered index a₀ a a' w own t v members) (x : TypeId) :
    w.type x ≠ some own :=
  fun hx => (h.faithful.typeMade hx).elim h.fresh

theorem memberFresh (h : Answered index a₀ a a' w own t v members) (x : MemberId) :
    w.member x ≠ some own :=
  fun hx => (h.faithful.memberMade hx).elim h.fresh

/-- The answer's type stands for what `own` denotes. -/
theorem adopted (h : Answered index a₀ a a' w own t v members) :
    Fits a' (w.adopt a₀ own t members) t v := by
  obtain ⟨horigin, members', htype, hall⟩ := h.fits.adopt h.shown
  refine ⟨horigin, members', h.sameTypes ▸ htype, hall.imp fun m o hf => ⟨?_, hf.owner⟩⟩
  rw [h.sameMembers]
  exact hf.data

theorem allFit (h : Answered index a₀ a a' w own t v members) :
    List.Forall₂ (FitsMember a' (w.adopt a₀ own t members)) members v.members := by
  obtain ⟨members', htype, hall⟩ := h.adopted.shown
  rw [h.sameTypes, h.shown] at htype
  obtain rfl := (TypeData.mk.inj (Option.some.inj htype)).2.2.2
  exact hall

theorem kept (h : Answered index a₀ a a' w own t v members) (hr : Recorded a w o r) :
    Recorded a' (w.adopt a₀ own t members) o r :=
  ((h.recorded o r).2 (.inr hr)).keep (w.keeps_adopt ..)

theorem given (h : Answered index a₀ a a' w own t v members) :
    Recorded a' (w.adopt a₀ own t members) own (some t) :=
  ((h.recorded own (some t)).2 (.inl ⟨rfl, rfl⟩)).keep (w.keeps_adopt ..)

theorem typeUnique (h : Answered index a₀ a a' w own t v members) {x x' : TypeId}
    (hx : (w.adopt a₀ own t members).type x = some o)
    (hx' : (w.adopt a₀ own t members).type x' = some o) : x = x' := by
  rcases w.adopt_type x with hsame | ⟨-, hown, hxt, -⟩ <;>
    rcases w.adopt_type x' with hsame' | ⟨-, hown', hxt', -⟩
  · exact h.faithful.typeUnique (hsame ▸ hx) (hsame' ▸ hx')
  · exact absurd (hsame.symm.trans (hx.trans (hx'.symm.trans hown'))) (h.typeFresh x)
  · exact absurd (hsame'.symm.trans (hx'.trans (hx.symm.trans hown))) (h.typeFresh x')
  · exact hxt.trans hxt'.symm

theorem memberUnique (h : Answered index a₀ a a' w own t v members) {x x' : MemberId}
    {o : OutlineMember} (hx : FitsMember a' (w.adopt a₀ own t members) x o)
    (hx' : FitsMember a' (w.adopt a₀ own t members) x' o) : x = x' := by
  rcases w.adopt_member x with hsame | ⟨-, hown, hmem, -⟩ <;>
    rcases w.adopt_member x' with hsame' | ⟨-, hown', hmem', -⟩
  · exact h.faithful.memberUnique ⟨h.sameMembers ▸ hx.data, hsame ▸ hx.owner⟩
      ⟨h.sameMembers ▸ hx'.data, hsame' ▸ hx'.owner⟩
  · exact absurd (hsame.symm.trans (hx.owner.trans (hx'.owner.symm.trans hown'))) (h.memberFresh x)
  · exact absurd (hsame'.symm.trans (hx'.owner.trans (hx.owner.symm.trans hown))) (h.memberFresh x')
  · exact eq_of_fitsMember h.allFit (meaning_nodup own v h.denotes) hmem hmem'
      (hx.data.trans hx'.data.symm)

/-- A recorded answer of the new arena is the one given or one of before. -/
theorem recorded_cases (h : Answered index a₀ a a' w own t v members)
    (hr : Recorded a' (w.adopt a₀ own t members) o r) :
    o = own ∧ r = some t ∨ Recorded a w o r := by
  refine (h.recorded o r).1 ?_
  cases o with
  | member owner data =>
    obtain ⟨m, hown, hdata, hm⟩ := hr
    refine ⟨m, ?_, hdata, hm⟩
    rcases w.adopt_member m with hsame | ⟨-, -, -, hsize⟩
    · exact hsame.symm.trans hown
    · exact absurd (h.asked m r hm) (Nat.not_lt.2 hsize)
  | keyword | jsxElement | declared | site => exact hr

theorem stands (h : Answered index a₀ a a' w own t v members) {v' : Option Outline}
    (hs : Stands a w r v') : Stands a' (w.adopt a₀ own t members) r v' := by
  refine (hs.keep (w.keeps_adopt a₀ own t members)).imp fun x v hf => ?_
  obtain ⟨members', htype, hall⟩ := hf.shown
  refine ⟨hf.origin, members', h.sameTypes ▸ htype, hall.imp fun m o hf => ⟨?_, hf.owner⟩⟩
  rw [h.sameMembers]
  exact hf.data

/-- Where the answer's type and its members get their names, the new arena is faithful. -/
theorem faithful_adopt (h : Answered index a₀ a a' w own t v members) :
    Faithful index a' (w.adopt a₀ own t members) := by
  constructor
  case typeKnown =>
    intro x o hx
    rw [h.sameTypes]
    rcases w.adopt_type x with hsame | ⟨-, -, hxt, -⟩
    · exact h.faithful.typeKnown (hsame ▸ hx)
    · exact hxt ▸ lt_size_of_getElem? h.shown
  case memberKnown =>
    intro x o hx
    rcases w.adopt_member x with hsame | ⟨-, -, hmem, -⟩
    · rw [h.sameMembers]
      exact h.faithful.memberKnown (hsame ▸ hx)
    · obtain ⟨o, -, hf⟩ := exists_fitsMember h.allFit hmem
      exact lt_size_of_getElem? hf.data
  case typeUnique => exact h.typeUnique
  case memberUnique => exact h.memberUnique
  case typeMade =>
    intro x o hx
    rcases w.adopt_type x with hsame | ⟨-, heq, -⟩
    · exact (h.faithful.typeMade (hsame ▸ hx)).imp fun _ => h.kept
    · obtain rfl := Option.some.inj (heq.symm.trans hx)
      exact ⟨some t, h.given⟩
  case memberMade =>
    intro x o hx
    rcases w.adopt_member x with hsame | ⟨-, heq, -⟩
    · exact (h.faithful.memberMade (hsame ▸ hx)).imp fun _ => h.kept
    · obtain rfl := Option.some.inj (heq.symm.trans hx)
      exact ⟨some t, h.given⟩
  case asked =>
    intro m r hm
    rw [h.sameMembers]
    exact Nat.lt_of_lt_of_le (h.asked m r hm) h.older
  case answers =>
    intro o r hr ho
    rcases h.recorded_cases hr with ⟨rfl, rfl⟩ | hr
    · rw [h.denotes]
      exact .some h.adopted
    · exact h.stands (h.faithful.answers hr ho)

end Answered

/-- An answer may be recorded that needs no new names. -/
theorem Faithful.recordAnswer (h : Faithful index a w) (hs : own.Untangled index →
      Stands a w r (meaning index own)) (hsame : Extends a w a' w)
    (hrecorded : ∀ o r', Recorded a' w o r' ↔ o = own ∧ r' = r ∨ Recorded a w o r')
    (hasked : ∀ m r, a'.memberTypes.lookup m = some r → m.index < a'.members.size) :
    Faithful index a' w := by
  refine h.record hsame (fun o r hr => (hrecorded o r).2 (.inr hr)) (fun o r' hr ho => ?_) hasked
  rcases (hrecorded o r').1 hr with ⟨rfl, rfl⟩ | hr
  · exact .inr ((hs ho).extend hsame)
  · exact .inl hr

/-- An answer that was worked out since `a₀` may be recorded. -/
theorem Faithful.answer (h : Faithful index a w) (he : Extends a₀ w₀ a w)
    (hfresh : ∀ r, ¬ Recorded a w own r)
    (hstands : own.Untangled index → Stands a (w.since a₀ own) r (meaning index own))
    (hrecorded : ∀ o r', Recorded a' w o r' ↔ o = own ∧ r' = r ∨ Recorded a w o r')
    (htypes : a'.types = a.types) (hmembers : a'.members = a.members)
    (hasked : ∀ m r, a'.memberTypes.lookup m = some r → m.index < a₀.members.size) :
    ∃ w', Extends a₀ w₀ a' w' ∧ Faithful index a' w' ∧
      (own.Untangled index → Stands a' w' r (meaning index own)) := by
  have hsame : Extends a w a' w := by
    refine ⟨?_, ?_, ?_, ?_, fun _ _ => rfl, fun _ _ => rfl⟩ <;> simp [htypes, hmembers]
  have hplain : (own.Untangled index → Stands a w r (meaning index own)) →
      ∃ w', Extends a₀ w₀ a' w' ∧ Faithful index a' w' ∧
        (own.Untangled index → Stands a' w' r (meaning index own)) := by
    intro hs
    refine ⟨w, he.trans hsame, h.recordAnswer hs hsame hrecorded fun m r hm => ?_,
      fun ho => (hs ho).extend hsame⟩
    rw [hmembers]
    exact Nat.lt_of_lt_of_le (hasked m r hm) he.membersSize
  by_cases ho : own.Untangled index
  · have hs := hstands ho
    rcases hv : meaning index own with _ | v
    · rw [hv] at hs
      cases hs
      exact hv ▸ hplain fun _ => hv ▸ .none
    · rw [hv] at hs
      cases hs with
      | some hfits =>
        obtain ⟨members, htype, -⟩ := hfits.shown
        have hanswered : Answered index a₀ a a' w own _ v members :=
          ⟨h, he.membersSize, hfresh, hv, hfits, htype, htypes, hmembers, hrecorded, hasked⟩
        exact ⟨_, (he.trans hsame).adopt own _ members, hanswered.faithful_adopt,
          fun _ => .some hanswered.adopted⟩
  · exact hplain fun h => absurd h ho

end ComponentSchema
