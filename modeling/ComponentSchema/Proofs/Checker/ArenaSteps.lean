import ComponentSchema.Program
import ComponentSchema.Proofs.Checker.ResolutionAnswers
import Mathlib.Logic.Relation

/-!
# Steps of an arena

Whatever a program is asked, its arena changes by few kinds of steps: a member is made, a type is
made, a declaration is taken up, a declaration gets its answer, an answer is kept. A type with an
alias name is only ever made as the answer of an alias declaration of that name, in the step by which
the declaration gets it. So what holds of an arena at all times can be read off one step.

Members are made in scopes of `S` only.

Results.
* `Steps.retains`: what is in an arena, and the answers it has given, stay as they are.
* `Sound.steps`: all that an arena speaks of is in it.
* `Accounts.steps`: every keyword has one type, and every type with an alias name is the answer of
  an alias declaration of that name.
* `Step.makes_alias`: that declaration was being resolved when the type was made.
-/
namespace ComponentSchema

open Syntax Relation

variable {index : Index} {S : ScopeId → Prop} {a a' a'' : Arena}

/-- A declaration is an alias of that name. -/
def Index.IsAliasNamed (index : Index) (d : DeclId) (name : String) : Prop :=
  ∃ scope type, index.decls[d.index]? = some ⟨name, scope, .typeAlias type⟩

namespace Arena

/-! ## What is in an arena -/

def HasType (a : Arena) (t : TypeId) : Prop := t.index < a.types.size

def HasMember (a : Arena) (m : MemberId) : Prop := m.index < a.members.size

/-- An answer is a type of the arena, or there is none. -/
def HasAnswer (a : Arena) (r : Option TypeId) : Prop := ∀ t ∈ r, a.HasType t

/-- Members of the arena with different names. -/
structure Holds (a : Arena) (members : List MemberId) : Prop where
  has : ∀ m ∈ members, a.HasMember m
  names : (members.map fun m => (a.memberData m).name).Nodup

/-- The type that is made next. -/
def nextType (a : Arena) : TypeId := ⟨a.types.size⟩

/-- The arena with one type more. -/
def addType (a : Arena) (data : TypeData) : Arena := { a with types := a.types.push data }

/-- The arena with one member more. -/
def addMember (a : Arena) (data : MemberData) : Arena := { a with members := a.members.push data }

theorem HasAnswer.none : a.HasAnswer none := by simp [HasAnswer]

theorem HasAnswer.some {t : TypeId} (h : a.HasType t) : a.HasAnswer (some t) := by
  simpa [HasAnswer] using h

theorem Holds.nil (a : Arena) : a.Holds [] := ⟨by simp, by simp⟩

theorem hasType_nextType (a : Arena) (data : TypeData) : (a.addType data).HasType a.nextType := by
  simp [HasType, nextType, addType]

/-! ## Steps -/

/-- What a program does to its arena at once. -/
inductive Step (index : Index) (S : ScopeId → Prop) : Arena → Arena → Prop
  | member {a : Arena} (data : MemberData) : S data.scope → Step index S a (a.addMember data)
  | type {a : Arena} (data : TypeData) : data.aliasName = none → data.intrinsic = none →
      a.Holds data.members → Step index S a (a.addType data)
  | keyword {a : Arena} (keyword : KeywordType) : a.intrinsics.lookup keyword = none →
      Step index S a { a.addType { TypeData.blank with intrinsic := some keyword } with
        intrinsics := (keyword, a.nextType) :: a.intrinsics }
  | jsxElement {a : Arena} : a.jsxElement = none →
      Step index S a { a.addType { TypeData.blank with symbol := some TypeSymbol.jsxElement } with
        jsxElement := some a.nextType }
  /-- A declaration is taken up. -/
  | mark {a : Arena} (d : DeclId) : d.index < index.decls.size → a.declared.lookup d = none →
      Step index S a (a.mark d)
  /-- A declaration gets its answer. -/
  | declare {a : Arena} (d : DeclId) (r : Option TypeId) :
      a.declared.lookup d = some .resolving → a.HasAnswer r → Step index S a (a.declare d r)
  /-- A type is made as the answer of an alias. -/
  | named {a : Arena} (d : DeclId) (name : String) (data : TypeData) : index.IsAliasNamed d name →
      a.declared.lookup d = some .resolving → data.aliasName = some name → data.intrinsic = none →
      a.Holds data.members → Step index S a ((a.addType data).declare d (some a.nextType))
  /-- The answer about an annotation is kept. -/
  | node {a : Arena} (node : NodeId) (r : Option TypeId) : node.index < index.typeSites.size →
      a.nodes.lookup node = none → a.HasAnswer r →
      Step index S a { a with nodes := (node, r) :: a.nodes }
  /-- The answer about a member is kept. -/
  | memberType {a : Arena} (m : MemberId) (r : Option TypeId) : a.memberTypes.lookup m = none →
      a.HasMember m → a.HasAnswer r →
      Step index S a { a with memberTypes := (m, r) :: a.memberTypes }

/-- What a program does to its arena. -/
abbrev Steps (index : Index) (S : ScopeId → Prop) : Arena → Arena → Prop :=
  ReflTransGen (Step index S)

/-! ## What is kept -/

/-- What is in an arena is in another, and the answers of the one are those of the other. -/
structure Retains (a a' : Arena) : Prop where
  typesSize : a.types.size ≤ a'.types.size
  membersSize : a.members.size ≤ a'.members.size
  types : ∀ i < a.types.size, a'.types[i]? = a.types[i]?
  members : ∀ i < a.members.size, a'.members[i]? = a.members[i]?
  intrinsics : ∀ {keyword t}, a.intrinsics.lookup keyword = some t →
    a'.intrinsics.lookup keyword = some t
  jsxElement : ∀ {t}, a.jsxElement = some t → a'.jsxElement = some t
  asked : ∀ {d}, a'.declared.lookup d = none → a.declared.lookup d = none
  declared : ∀ {d r}, a.declared.lookup d = some (.done r) → a'.declared.lookup d = some (.done r)
  nodes : ∀ {node r}, a.nodes.lookup node = some r → a'.nodes.lookup node = some r
  memberTypes : ∀ {m r}, a.memberTypes.lookup m = some r → a'.memberTypes.lookup m = some r

theorem Retains.refl (a : Arena) : Retains a a :=
  ⟨Nat.le_refl _, Nat.le_refl _, fun _ _ => rfl, fun _ _ => rfl, id, id, id, id, id, id⟩

theorem Retains.trans (h : Retains a a') (h' : Retains a' a'') : Retains a a'' where
  typesSize := Nat.le_trans h.typesSize h'.typesSize
  membersSize := Nat.le_trans h.membersSize h'.membersSize
  types i hi := (h'.types i (Nat.lt_of_lt_of_le hi h.typesSize)).trans (h.types i hi)
  members i hi := (h'.members i (Nat.lt_of_lt_of_le hi h.membersSize)).trans (h.members i hi)
  intrinsics hk := h'.intrinsics (h.intrinsics hk)
  jsxElement ht := h'.jsxElement (h.jsxElement ht)
  asked hd := h.asked (h'.asked hd)
  declared hd := h'.declared (h.declared hd)
  nodes hn := h'.nodes (h.nodes hn)
  memberTypes hm := h'.memberTypes (h.memberTypes hm)

theorem Retains.hasType (h : Retains a a') {t : TypeId} (ht : a.HasType t) : a'.HasType t :=
  Nat.lt_of_lt_of_le ht h.typesSize

theorem Retains.hasMember (h : Retains a a') {m : MemberId} (hm : a.HasMember m) : a'.HasMember m :=
  Nat.lt_of_lt_of_le hm h.membersSize

theorem Retains.hasAnswer (h : Retains a a') {r : Option TypeId} (hr : a.HasAnswer r) :
    a'.HasAnswer r :=
  fun t ht => h.hasType (hr t ht)

theorem Retains.typeData (h : Retains a a') {t : TypeId} (ht : a.HasType t) :
    a'.typeData t = a.typeData t := by
  rw [Arena.typeData, Arena.typeData, h.types _ ht]

theorem Retains.memberData (h : Retains a a') {m : MemberId} (hm : a.HasMember m) :
    a'.memberData m = a.memberData m := by
  rw [Arena.memberData, Arena.memberData, h.members _ hm]

theorem Retains.holds (h : Retains a a') {members : List MemberId} (hm : a.Holds members) :
    a'.Holds members := by
  have hsame : members.map (fun m => (a'.memberData m).name) =
      members.map fun m => (a.memberData m).name :=
    List.map_congr_left fun m hmem => congrArg (·.name) (h.memberData (hm.has m hmem))
  exact ⟨fun m hmem => h.hasMember (hm.has m hmem), hsame ▸ hm.names⟩

theorem retains_addType (a : Arena) (data : TypeData) : Retains a (a.addType data) :=
  { Retains.refl a with
    typesSize := by simp [addType]
    types := fun i hi => getElem?_push_of_lt hi }

theorem retains_addMember (a : Arena) (data : MemberData) : Retains a (a.addMember data) :=
  { Retains.refl a with
    membersSize := by simp [addMember]
    members := fun i hi => getElem?_push_of_lt hi }

/-- A new key in a table of answers leaves the others as they are. -/
theorem lookup_cons_retains {κ ν : Type} [DecidableEq κ] {entries : List (κ × ν)} {key key' : κ}
    {value value' : ν} (hnew : entries.lookup key = none)
    (h : entries.lookup key' = some value') :
    ((key, value) :: entries).lookup key' = some value' :=
  (lookup_cons_iff hnew).2 (.inr h)

theorem retains_mark {d : DeclId} (hnew : a.declared.lookup d = none) : Retains a (a.mark d) where
  __ := Retains.refl a
  asked {e} he := by
    rw [mark_lookup] at he
    split at he
    · cases he
    · exact he
  declared {e r} he := by
    rw [mark_lookup, if_neg]
    · exact he
    · rintro rfl
      rw [hnew] at he
      cases he

theorem retains_declare {d : DeclId} (r : Option TypeId) (hd : a.declared.lookup d = some .resolving) :
    Retains a (a.declare d r) where
  __ := Retains.refl a
  asked {e} he := by
    rw [declare_lookup] at he
    split at he
    · cases he
    · exact he
  declared {e r'} he := by
    rw [declare_lookup, if_neg]
    · exact he
    · rintro rfl
      rw [hd] at he
      cases he

theorem Step.retains (h : Step index S a a') : Retains a a' := by
  cases h with
  | member data _ => exact retains_addMember a data
  | type data _ _ _ => exact retains_addType a data
  | keyword keyword hnew =>
    exact { retains_addType a _ with intrinsics := lookup_cons_retains hnew }
  | jsxElement hnew =>
    refine { retains_addType a _ with jsxElement := fun {t} ht => ?_ }
    rw [hnew] at ht
    cases ht
  | mark d _ hnew => exact retains_mark hnew
  | declare d r hd _ => exact retains_declare r hd
  | named d name data _ hd _ _ _ =>
    have hadded : (a.addType data).declared.lookup d = some .resolving := hd
    exact (retains_addType a data).trans (retains_declare _ hadded)
  | node node r _ hnew _ => exact { Retains.refl a with nodes := lookup_cons_retains hnew }
  | memberType m r hnew _ _ => exact { Retains.refl a with memberTypes := lookup_cons_retains hnew }

theorem Steps.retains (h : Steps index S a a') : Retains a a' := by
  induction h with
  | refl => exact .refl a
  | tail _ hstep ih => exact ih.trans hstep.retains

/-! ## All that an arena speaks of is in it -/

/-- All types and members that an arena mentions are in it, and all declarations and annotations that
it mentions are in the index; members are read in scopes of `S`. -/
structure Sound (index : Index) (S : ScopeId → Prop) (a : Arena) : Prop where
  scopes : ∀ data ∈ a.members, S data.scope
  types : ∀ data ∈ a.types, a.Holds data.members
  intrinsics : ∀ entry ∈ a.intrinsics, a.HasType entry.2
  jsxElement : a.HasAnswer a.jsxElement
  declared : ∀ entry ∈ a.declared, entry.1.index < index.decls.size ∧
    ∀ r, entry.2 = .done r → a.HasAnswer r
  nodes : ∀ entry ∈ a.nodes, entry.1.index < index.typeSites.size ∧ a.HasAnswer entry.2
  memberTypes : ∀ entry ∈ a.memberTypes, a.HasMember entry.1 ∧ a.HasAnswer entry.2

theorem sound_empty (index : Index) (S : ScopeId → Prop) : Sound index S Arena.empty := by
  refine ⟨?_, ?_, ?_, HasAnswer.none, ?_, ?_, ?_⟩ <;> simp [Arena.empty]

/-- An arena stays sound if what is new in it is. -/
theorem Sound.grow (h : Sound index S a) (hk : Retains a a')
    (hscopes : ∀ data ∈ a'.members, data ∈ a.members ∨ S data.scope)
    (htypes : ∀ data ∈ a'.types, data ∈ a.types ∨ a'.Holds data.members)
    (hintrinsics : ∀ entry ∈ a'.intrinsics, entry ∈ a.intrinsics ∨ a'.HasType entry.2)
    (hjsx : a'.jsxElement = a.jsxElement ∨ a'.HasAnswer a'.jsxElement)
    (hdeclared : ∀ entry ∈ a'.declared, entry ∈ a.declared ∨ entry.1.index < index.decls.size ∧
      ∀ r, entry.2 = .done r → a'.HasAnswer r)
    (hnodes : ∀ entry ∈ a'.nodes,
      entry ∈ a.nodes ∨ entry.1.index < index.typeSites.size ∧ a'.HasAnswer entry.2)
    (hmemberTypes : ∀ entry ∈ a'.memberTypes,
      entry ∈ a.memberTypes ∨ a'.HasMember entry.1 ∧ a'.HasAnswer entry.2) :
    Sound index S a' where
  scopes data hdata := (hscopes data hdata).elim (h.scopes data) id
  types data hdata := (htypes data hdata).elim (fun hold => hk.holds (h.types data hold)) id
  intrinsics entry he := (hintrinsics entry he).elim (fun hold => hk.hasType (h.intrinsics _ hold)) id
  jsxElement := by
    rcases hjsx with hsame | hnew
    · rw [hsame]
      exact hk.hasAnswer h.jsxElement
    · exact hnew
  declared entry he := by
    rcases hdeclared entry he with hold | hnew
    · obtain ⟨hd, hr⟩ := h.declared entry hold
      exact ⟨hd, fun r hentry => hk.hasAnswer (hr r hentry)⟩
    · exact hnew
  nodes entry he := by
    rcases hnodes entry he with hold | hnew
    · obtain ⟨hnode, hr⟩ := h.nodes entry hold
      exact ⟨hnode, hk.hasAnswer hr⟩
    · exact hnew
  memberTypes entry he := by
    rcases hmemberTypes entry he with hold | hnew
    · obtain ⟨hm, hr⟩ := h.memberTypes entry hold
      exact ⟨hk.hasMember hm, hk.hasAnswer hr⟩
    · exact hnew

theorem Sound.addType (h : Sound index S a) (data : TypeData) (hdata : a.Holds data.members) :
    Sound index S (a.addType data) := by
  have hk := retains_addType a data
  refine h.grow hk (fun _ => .inl) (fun other hother => ?_) (fun _ => .inl) (.inl rfl)
    (fun _ => .inl) (fun _ => .inl) fun _ => .inl
  rcases Array.mem_push.1 hother with hold | rfl
  · exact .inl hold
  · exact .inr (hk.holds hdata)

theorem Sound.declare (h : Sound index S a) {d : DeclId} {r : Option TypeId}
    (hd : a.declared.lookup d = some .resolving) (hr : a.HasAnswer r) :
    Sound index S (a.declare d r) := by
  refine h.grow (retains_declare r hd) (fun _ => .inl) (fun _ => .inl) (fun _ => .inl) (.inl rfl)
    (fun entry he => ?_) (fun _ => .inl) fun _ => .inl
  rcases List.mem_cons.1 he with rfl | hold
  · refine .inr ⟨(h.declared _ (mem_of_lookup hd)).1, fun r' hr' => ?_⟩
    rw [← DeclState.done.inj hr']
    exact hr
  · exact .inl hold

theorem Sound.step (h : Sound index S a) (hstep : Step index S a a') : Sound index S a' := by
  have hk := hstep.retains
  cases hstep with
  | member data hscope =>
    refine h.grow hk (fun other hother => ?_) (fun _ => .inl) (fun _ => .inl) (.inl rfl)
      (fun _ => .inl) (fun _ => .inl) fun _ => .inl
    rcases Array.mem_push.1 hother with hold | rfl
    · exact .inl hold
    · exact .inr hscope
  | type data _ _ hdata => exact h.addType data hdata
  | keyword keyword hnew =>
    have hadded := h.addType { TypeData.blank with intrinsic := some keyword } (.nil a)
    refine hadded.grow ?_ (fun _ => .inl) (fun _ => .inl) (fun entry he => ?_) (.inl rfl)
      (fun _ => .inl) (fun _ => .inl) fun _ => .inl
    · exact { Retains.refl (a.addType _) with intrinsics := lookup_cons_retains hnew }
    · rcases List.mem_cons.1 he with rfl | hold
      · exact .inr (hasType_nextType a _)
      · exact .inl hold
  | jsxElement hnew =>
    have hadded := h.addType { TypeData.blank with symbol := some TypeSymbol.jsxElement } (.nil a)
    refine hadded.grow ?_ (fun _ => .inl) (fun _ => .inl) (fun _ => .inl)
      (.inr (.some (hasType_nextType a _))) (fun _ => .inl) (fun _ => .inl) fun _ => .inl
    refine { Retains.refl (a.addType _) with jsxElement := fun {t} ht => ?_ }
    have hnone : (a.addType { TypeData.blank with symbol := some TypeSymbol.jsxElement }).jsxElement
      = none := hnew
    rw [hnone] at ht
    cases ht
  | mark d hdecl hnew =>
    refine h.grow hk (fun _ => .inl) (fun _ => .inl) (fun _ => .inl) (.inl rfl)
      (fun entry he => ?_) (fun _ => .inl) fun _ => .inl
    rcases List.mem_cons.1 he with rfl | hold
    · exact .inr ⟨hdecl, fun r hr => DeclState.noConfusion hr⟩
    · exact .inl hold
  | declare d r hd hr => exact h.declare hd hr
  | named d name data _ hd _ _ hdata =>
    exact (h.addType data hdata).declare hd (.some (hasType_nextType a data))
  | node node r hnode _ hr =>
    refine h.grow hk (fun _ => .inl) (fun _ => .inl) (fun _ => .inl) (.inl rfl) (fun _ => .inl)
      (fun entry he => ?_) fun _ => .inl
    rcases List.mem_cons.1 he with rfl | hold
    · exact .inr ⟨hnode, hr⟩
    · exact .inl hold
  | memberType m r _ hm hr =>
    refine h.grow hk (fun _ => .inl) (fun _ => .inl) (fun _ => .inl) (.inl rfl) (fun _ => .inl)
      (fun _ => .inl) fun entry he => ?_
    rcases List.mem_cons.1 he with rfl | hold
    · exact .inr ⟨hm, hr⟩
    · exact .inl hold

theorem Sound.steps (h : Sound index S a) (hsteps : Steps index S a a') : Sound index S a' := by
  induction hsteps with
  | refl => exact h
  | tail _ hstep ih => exact ih.step hstep

/-! ## Where types with names come from -/

/-- Every keyword has one type, and every type with an alias name is the answer of an alias
declaration of that name. -/
structure Accounts (index : Index) (a : Arena) : Prop where
  keyword : ∀ {t data keyword}, a.types[t]? = some data → data.intrinsic = some keyword →
    a.intrinsics.lookup keyword = some ⟨t⟩
  named : ∀ {t data name}, a.types[t]? = some data → data.aliasName = some name →
    ∃ d, index.IsAliasNamed d name ∧ a.declared.lookup d = some (.done (some ⟨t⟩))

theorem accounts_empty (index : Index) : Accounts index Arena.empty :=
  ⟨fun h => by simp [Arena.empty] at h, fun h => by simp [Arena.empty] at h⟩

theorem getElem?_types {t : TypeId} (h : a.HasType t) : a.types[t.index]? = some (a.typeData t) := by
  rw [Arena.typeData, Array.getElem?_eq_getElem h, Option.getD_some]

theorem Accounts.keyword_lookup (h : Accounts index a) {t : TypeId} {keyword : KeywordType}
    (ht : a.HasType t) (hkeyword : (a.typeData t).intrinsic = some keyword) :
    a.intrinsics.lookup keyword = some t :=
  h.keyword (getElem?_types ht) hkeyword

/-- Accounts stay right if the new types are accounted for. -/
theorem Accounts.grow (h : Accounts index a) (hk : Retains a a')
    (hkeyword : ∀ {t data keyword}, a.types.size ≤ t → a'.types[t]? = some data →
      data.intrinsic = some keyword → a'.intrinsics.lookup keyword = some ⟨t⟩)
    (hnamed : ∀ {t data name}, a.types.size ≤ t → a'.types[t]? = some data →
      data.aliasName = some name →
      ∃ d, index.IsAliasNamed d name ∧ a'.declared.lookup d = some (.done (some ⟨t⟩))) :
    Accounts index a' where
  keyword {t data keyword} ht hdata := by
    by_cases hlt : t < a.types.size
    · exact hk.intrinsics (h.keyword (hk.types t hlt ▸ ht) hdata)
    · exact hkeyword (Nat.le_of_not_lt hlt) ht hdata
  named {t data name} ht hdata := by
    by_cases hlt : t < a.types.size
    · obtain ⟨d, hd, hdone⟩ := h.named (hk.types t hlt ▸ ht) hdata
      exact ⟨d, hd, hk.declared hdone⟩
    · exact hnamed (Nat.le_of_not_lt hlt) ht hdata

/-- The only new type is the one that was added. -/
theorem eq_of_getElem?_addType {data data' : TypeData} {t : Nat} (hle : a.types.size ≤ t)
    (ht : (a.addType data).types[t]? = some data') : t = a.types.size ∧ data' = data := by
  rw [addType, Array.getElem?_push] at ht
  split at ht
  · rename_i heq
    exact ⟨heq, (Option.some.inj ht).symm⟩
  · rw [Array.getElem?_eq_none hle] at ht
    cases ht

theorem Accounts.step (h : Accounts index a) (hstep : Step index S a a') : Accounts index a' := by
  have hk := hstep.retains
  cases hstep with
  | member | mark | declare | node | memberType =>
    refine h.grow hk (fun {t data _} hle ht => ?_) (fun {t data _} hle ht => ?_) <;>
      exact absurd (lt_size_of_getElem? ht) (Nat.not_lt.2 hle)
  | type data hname hintrinsic _ =>
    refine h.grow hk (fun hle ht hdata => ?_) (fun hle ht hdata => ?_) <;>
      obtain ⟨-, rfl⟩ := eq_of_getElem?_addType hle ht
    · rw [hintrinsic] at hdata
      cases hdata
    · rw [hname] at hdata
      cases hdata
  | keyword keyword hnew =>
    refine h.grow hk (fun hle ht hdata => ?_) (fun hle ht hdata => ?_) <;>
      obtain ⟨rfl, rfl⟩ := eq_of_getElem?_addType hle ht
    · obtain rfl := Option.some.inj hdata
      exact List.lookup_cons_self
    · cases hdata
  | jsxElement hnew =>
    refine h.grow hk (fun hle ht hdata => ?_) (fun hle ht hdata => ?_) <;>
      obtain ⟨-, rfl⟩ := eq_of_getElem?_addType hle ht <;> cases hdata
  | named d name data hd _ hname hintrinsic _ =>
    refine h.grow hk (fun hle ht hdata => ?_) (fun hle ht hdata => ?_) <;>
      obtain ⟨rfl, rfl⟩ := eq_of_getElem?_addType hle ht
    · rw [hintrinsic] at hdata
      cases hdata
    · obtain rfl := Option.some.inj (hname.symm.trans hdata)
      exact ⟨d, hd, (declare_lookup ..).trans (if_pos rfl)⟩

theorem Accounts.steps (h : Accounts index a) (hsteps : Steps index S a a') :
    Accounts index a' := by
  induction hsteps with
  | refl => exact h
  | tail _ hstep ih => exact ih.step hstep

/-- A type with an alias name is made by the step that ends the resolution of an alias declaration of
that name, as its answer. -/
theorem Step.makes_alias (h : Step index S a a') {t : TypeId} {data : TypeData} {name : String}
    (hnew : a.types.size ≤ t.index) (ht : a'.types[t.index]? = some data)
    (hname : data.aliasName = some name) :
    ∃ d, index.IsAliasNamed d name ∧ a.declared.lookup d = some .resolving ∧
      a'.declared.lookup d = some (.done (some t)) := by
  cases h with
  | member | mark | declare | node | memberType =>
    exact absurd (lt_size_of_getElem? ht) (Nat.not_lt.2 hnew)
  | type data hnone =>
    obtain ⟨-, rfl⟩ := eq_of_getElem?_addType hnew ht
    rw [hnone] at hname
    cases hname
  | keyword | jsxElement =>
    obtain ⟨-, rfl⟩ := eq_of_getElem?_addType hnew ht
    cases hname
  | named d name' data hd hway hdata =>
    obtain ⟨hlast, rfl⟩ := eq_of_getElem?_addType hnew ht
    obtain rfl : t = a.nextType := congrArg TypeId.mk hlast
    obtain rfl := Option.some.inj (hdata.symm.trans hname)
    exact ⟨d, hd, hway, (declare_lookup ..).trans (if_pos rfl)⟩

end Arena

end ComponentSchema
