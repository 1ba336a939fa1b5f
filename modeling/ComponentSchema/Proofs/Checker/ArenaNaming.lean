import ComponentSchema.Proofs.Checker.DeclarationMeaning
import Mathlib.Data.List.Forall2

/-!
# Arenas and what they stand for

A naming says of the types and the members of an arena where they come from; it is not part of the
arena, and grows with it. `Faithful` is the invariant of an arena: no two types and no two members of
a type share an origin, and every answer given so far is what its origin denotes, if that is
untangled. Of tangled origins nothing is said, and what is made for them has no name.

While an answer is worked out, the types and members made for it are nameless. `Naming.since` counts
them as the answer's own.

Results.
* `Extends.refl`, `Extends.trans`, `Stands.extend`: an arena grows, and what stood for an outline
  does so still.
* `Faithful.record`: an arena stays faithful if what is recorded in it anew is.
-/
namespace ComponentSchema

open Syntax

/-- Where the types and the members of an arena come from, as far as that is known. -/
structure Naming where
  type : TypeId → Option TypeOrigin
  member : MemberId → Option TypeOrigin

variable {index : Index} {a a' a₀ : Arena} {w w' w₀ : Naming} {t t' : TypeId} {m m' : MemberId}
variable {own o : TypeOrigin} {v : Outline} {r r' : Option TypeId}

/-! ## Standing for an outline -/

/-- A member of an arena is the one of an outline. -/
structure FitsMember (a : Arena) (w : Naming) (m : MemberId) (o : OutlineMember) : Prop where
  data : a.members[m.index]? = some o.data
  owner : w.member m = some o.owner

/-- A type of an arena is the one of an outline. -/
structure Fits (a : Arena) (w : Naming) (t : TypeId) (v : Outline) : Prop where
  origin : w.type t = some v.origin
  shown : ∃ members, a.types[t.index]? = some ⟨v.symbol, v.aliasName, v.intrinsic, members⟩ ∧
    List.Forall₂ (FitsMember a w) members v.members

/-- An answer is the type of an outline, or both are absent. -/
def Stands (a : Arena) (w : Naming) (r : Option TypeId) (v : Option Outline) : Prop :=
  Option.Rel (Fits a w) r v

theorem FitsMember.memberData {o : OutlineMember} (h : FitsMember a w m o) :
    a.memberData m = o.data := by
  rw [Arena.memberData, h.data, Option.getD_some]

theorem Fits.typeData (h : Fits a w t v) :
    ∃ members, a.typeData t = ⟨v.symbol, v.aliasName, v.intrinsic, members⟩ ∧
      List.Forall₂ (FitsMember a w) members v.members := by
  obtain ⟨members, htype, hmembers⟩ := h.shown
  exact ⟨members, by rw [Arena.typeData, htype, Option.getD_some], hmembers⟩

/-- An arena has grown, and what was in it has the names that it had. -/
structure Extends (a : Arena) (w : Naming) (a' : Arena) (w' : Naming) : Prop where
  typesSize : a.types.size ≤ a'.types.size
  membersSize : a.members.size ≤ a'.members.size
  types : ∀ i < a.types.size, a'.types[i]? = a.types[i]?
  members : ∀ i < a.members.size, a'.members[i]? = a.members[i]?
  typeNames : ∀ t : TypeId, t.index < a.types.size → w'.type t = w.type t
  memberNames : ∀ m : MemberId, m.index < a.members.size → w'.member m = w.member m

theorem Extends.refl (a : Arena) (w : Naming) : Extends a w a w :=
  ⟨Nat.le_refl _, Nat.le_refl _, fun _ _ => rfl, fun _ _ => rfl, fun _ _ => rfl, fun _ _ => rfl⟩

theorem Extends.trans {a'' : Arena} {w'' : Naming} (h : Extends a w a' w')
    (h' : Extends a' w' a'' w'') : Extends a w a'' w'' where
  typesSize := Nat.le_trans h.typesSize h'.typesSize
  membersSize := Nat.le_trans h.membersSize h'.membersSize
  types i hi := (h'.types i (Nat.lt_of_lt_of_le hi h.typesSize)).trans (h.types i hi)
  members i hi := (h'.members i (Nat.lt_of_lt_of_le hi h.membersSize)).trans (h.members i hi)
  typeNames t ht :=
    (h'.typeNames t (Nat.lt_of_lt_of_le ht h.typesSize)).trans (h.typeNames t ht)
  memberNames m hm :=
    (h'.memberNames m (Nat.lt_of_lt_of_le hm h.membersSize)).trans (h.memberNames m hm)

theorem lt_size_of_getElem? {α : Type} {items : Array α} {i : Nat} {item : α}
    (h : items[i]? = some item) : i < items.size :=
  (Array.getElem?_eq_some_iff.1 h).choose

theorem FitsMember.extend {o : OutlineMember} (h : FitsMember a w m o) (he : Extends a w a' w') :
    FitsMember a' w' m o :=
  have hm := lt_size_of_getElem? h.data
  ⟨(he.members _ hm).trans h.data, (he.memberNames m hm).trans h.owner⟩

theorem Fits.extend (h : Fits a w t v) (he : Extends a w a' w') : Fits a' w' t v := by
  obtain ⟨members, htype, hmembers⟩ := h.shown
  have ht := lt_size_of_getElem? htype
  refine ⟨(he.typeNames t ht).trans h.origin, members, (he.types _ ht).trans htype, ?_⟩
  exact hmembers.imp fun _ _ h => h.extend he

theorem Stands.imp {v : Option Outline} (h : Stands a w r v)
    (hf : ∀ t v, Fits a w t v → Fits a' w' t v) : Stands a' w' r v := by
  cases h with
  | none => exact .none
  | some h => exact .some (hf _ _ h)

theorem Stands.extend {v : Option Outline} (h : Stands a w r v) (he : Extends a w a' w') :
    Stands a' w' r v :=
  h.imp fun _ _ h => h.extend he

/-! ## Nameless types -/

/-- The naming by which whatever is nameless and not in `a₀` comes from `own`. -/
def Naming.since (w : Naming) (a₀ : Arena) (own : TypeOrigin) : Naming where
  type t := (w.type t).or (if a₀.types.size ≤ t.index then some own else none)
  member m := (w.member m).or (if a₀.members.size ≤ m.index then some own else none)

theorem Extends.since (h : Extends a w a' w') (a₀ : Arena) (own : TypeOrigin) :
    Extends a (w.since a₀ own) a' (w'.since a₀ own) where
  typesSize := h.typesSize
  membersSize := h.membersSize
  types := h.types
  members := h.members
  typeNames t ht := by simp only [Naming.since, h.typeNames t ht]
  memberNames m hm := by simp only [Naming.since, h.memberNames m hm]

theorem FitsMember.since {o : OutlineMember} (h : FitsMember a w m o) (a₀ : Arena)
    (own : TypeOrigin) : FitsMember a (w.since a₀ own) m o :=
  ⟨h.data, by simp only [Naming.since, h.owner, Option.some_or]⟩

theorem Fits.since (h : Fits a w t v) (a₀ : Arena) (own : TypeOrigin) :
    Fits a (w.since a₀ own) t v := by
  obtain ⟨members, htype, hmembers⟩ := h.shown
  refine ⟨by simp only [Naming.since, h.origin, Option.some_or], members, htype, ?_⟩
  exact hmembers.imp fun _ _ h => h.since a₀ own

theorem Stands.since {v : Option Outline} (h : Stands a w r v) (a₀ : Arena) (own : TypeOrigin) :
    Stands a (w.since a₀ own) r v :=
  h.imp fun _ _ h => h.since a₀ own

/-! ## The invariant -/

/-- The arena holds an answer for an origin. -/
def Recorded (a : Arena) (w : Naming) (o : TypeOrigin) (r : Option TypeId) : Prop :=
  match o with
  | .keyword keyword => ∃ t, a.intrinsics.lookup keyword = some t ∧ r = some t
  | .jsxElement => ∃ t, a.jsxElement = some t ∧ r = some t
  | .declared d => a.declared.lookup d = some (.done r)
  | .site node => a.nodes.lookup node = some r
  | .member owner data =>
    ∃ m, w.member m = some owner ∧ a.members[m.index]? = some data ∧ a.memberTypes.lookup m = some r

/-- What holds of an arena between two questions, and of the names of what is in it. -/
structure Faithful (index : Index) (a : Arena) (w : Naming) : Prop where
  typeKnown : ∀ {t o}, w.type t = some o → t.index < a.types.size
  memberKnown : ∀ {m o}, w.member m = some o → m.index < a.members.size
  typeUnique : ∀ {t t' o}, w.type t = some o → w.type t' = some o → t = t'
  memberUnique : ∀ {m m' o}, FitsMember a w m o → FitsMember a w m' o → m = m'
  typeMade : ∀ {t o}, w.type t = some o → ∃ r, Recorded a w o r
  memberMade : ∀ {m o}, w.member m = some o → ∃ r, Recorded a w o r
  asked : ∀ {m r}, a.memberTypes.lookup m = some r → m.index < a.members.size
  answers : ∀ {o r}, Recorded a w o r → o.Untangled index → Stands a w r (meaning index o)

/-- With other answers recorded than before, and types and members added, an arena is faithful if
the new answers are. -/
theorem Faithful.record (h : Faithful index a w) (he : Extends a w a' w)
    (hkept : ∀ o r, Recorded a w o r → Recorded a' w o r)
    (hnew : ∀ o r, Recorded a' w o r → o.Untangled index →
      Recorded a w o r ∨ Stands a' w r (meaning index o))
    (hasked : ∀ m r, a'.memberTypes.lookup m = some r → m.index < a'.members.size) :
    Faithful index a' w where
  typeKnown ht := Nat.lt_of_lt_of_le (h.typeKnown ht) he.typesSize
  memberKnown hm := Nat.lt_of_lt_of_le (h.memberKnown hm) he.membersSize
  typeUnique := h.typeUnique
  memberUnique hm hm' := by
    have hold := he.members _ (h.memberKnown hm.owner)
    have hold' := he.members _ (h.memberKnown hm'.owner)
    exact h.memberUnique ⟨hold ▸ hm.data, hm.owner⟩ ⟨hold' ▸ hm'.data, hm'.owner⟩
  typeMade ht := (h.typeMade ht).imp fun _ hr => hkept _ _ hr
  memberMade hm := (h.memberMade hm).imp fun _ hr => hkept _ _ hr
  asked := hasked _ _
  answers hr ho := (hnew _ _ hr ho).elim (fun hr => (h.answers hr ho).extend he) id

/-- The answers of an arena that has only grown are those that it had. -/
theorem Faithful.recorded_iff (h : Faithful index a w) (he : Extends a w a' w)
    (hintrinsics : a'.intrinsics = a.intrinsics) (hjsx : a'.jsxElement = a.jsxElement)
    (hdeclared : ∀ d r, a'.declared.lookup d = some (.done r) ↔ a.declared.lookup d = some (.done r))
    (hnodes : a'.nodes = a.nodes) (hmembers : a'.memberTypes = a.memberTypes) :
    Recorded a' w o r ↔ Recorded a w o r := by
  cases o with
  | keyword keyword => simp only [Recorded, hintrinsics]
  | jsxElement => simp only [Recorded, hjsx]
  | declared d => exact hdeclared d r
  | site node => simp only [Recorded, hnodes]
  | member owner data =>
    simp only [Recorded, hmembers]
    refine exists_congr fun m => and_congr_right fun _ => and_congr_left fun hm => ?_
    rw [he.members _ (h.asked hm)]

end ComponentSchema
