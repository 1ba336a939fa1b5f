import ComponentSchema.Extract
import Mathlib.Data.List.Nodup
import Mathlib.Logic.Relation

/-!
# Expansion of types

The schemas that a type needs, before any extractor looks at it. A type leads to the types with
alias names that its members have (`nestedTypes`); following them along every path on which no type
comes twice, and listing a type after everything found below it, gives its expansion.

Hypothesis. `AliasBounded`: there are no more types with alias names than `aliasBound` says. This is
what it means for facts to be finite, and it is all that is used of it.

Results.
* `expansion_closed`: what a listed type leads to is listed too, or is on the path.
* `settled_expansion`: it is listed before the type, or leads back to it.
* `settled_firstMentions`: the order stays right when only the first mention of each type is kept.
-/
namespace ComponentSchema

open Relation

/-! ## First mentions -/

/-- The first mention of each type that is not among those seen. -/
def firstMentions (seen types : List TypeId) : List TypeId :=
  (types.filter fun type => type ∉ seen).eraseDups

theorem firstMentions_nil (types : List TypeId) : firstMentions [] types = types.eraseDups := by
  simp [firstMentions]

theorem firstMentions_cons_of_mem {seen types : List TypeId} {type : TypeId} (h : type ∈ seen) :
    firstMentions seen (type :: types) = firstMentions seen types := by
  simp [firstMentions, h]

theorem firstMentions_cons_of_notMem {seen types : List TypeId} {type : TypeId} (h : type ∉ seen) :
    firstMentions seen (type :: types) = type :: firstMentions (type :: seen) types := by
  have hfilter : (types.filter fun other => other ∉ seen).filter (fun other => !other == type) =
      types.filter fun other => other ∉ type :: seen := by
    rw [List.filter_filter]
    congr 1
    funext other
    by_cases he : other = type <;> simp [he]
  rw [firstMentions, List.filter_cons_of_pos (by simpa using h), List.eraseDups_cons, hfilter]
  rfl

theorem mem_firstMentions {seen types : List TypeId} {type : TypeId} :
    type ∈ firstMentions seen types ↔ type ∈ types ∧ type ∉ seen := by
  simp [firstMentions]

theorem firstMentions_eq_nil {seen types : List TypeId} (h : ∀ type ∈ types, type ∈ seen) :
    firstMentions seen types = [] := by
  have hfilter : types.filter (fun type => type ∉ seen) = [] := by
    rw [List.filter_eq_nil_iff]
    intro type ht
    simpa using h type ht
  rw [firstMentions, hfilter, List.eraseDups_nil]

/-- Only which types were seen matters. -/
theorem firstMentions_congr {seen seen' types : List TypeId}
    (h : ∀ type, type ∈ seen ↔ type ∈ seen') :
    firstMentions seen types = firstMentions seen' types := by
  simp [firstMentions, h]

theorem firstMentions_append (seen first second : List TypeId) :
    firstMentions seen (first ++ second) =
      firstMentions seen first ++ firstMentions (first ++ seen) second := by
  induction first generalizing seen with
  | nil => simp [firstMentions]
  | cons type rest ih =>
    by_cases h : type ∈ seen
    · rw [List.cons_append, firstMentions_cons_of_mem h, firstMentions_cons_of_mem h, ih]
      congr 1
      exact firstMentions_congr fun other => by
        by_cases he : other = type <;> simp [he, h]
    · rw [List.cons_append, firstMentions_cons_of_notMem h, firstMentions_cons_of_notMem h, ih]
      rw [List.cons_append]
      congr 2
      exact firstMentions_congr fun other => by
        simp only [List.mem_append, List.mem_cons]
        tauto

namespace TypeFacts

variable (facts : TypeFacts Id)

/-! ## The schema of a type -/

/-- The property that a member becomes. -/
def ownProperty (member : MemberId) : Property where
  name := (facts.memberName member).run
  intrinsicType := (facts.memberType member).run.bind fun type => (facts.intrinsicName type).run
  complexType := (facts.memberType member).run.bind fun type => (facts.aliasName type).run
  optional := (facts.memberOptional member).run

/-- The schema built from a type's own members. -/
def ownSchema (type : TypeId) : Schema :=
  ⟨(facts.schemaName type).run, (facts.members type).run.map facts.ownProperty⟩

/-! ## Nested types -/

/-- Whether a type has an alias name. -/
def IsAliased (type : TypeId) : Prop := (facts.aliasName type).run.isSome = true

instance (type : TypeId) : Decidable (facts.IsAliased type) := inferInstanceAs (Decidable (_ = _))

/-- There are at most `aliasBound` types with alias names. -/
def AliasBounded : Prop :=
  ∀ types : List TypeId, types.Nodup → (∀ type ∈ types, facts.IsAliased type) →
    types.length ≤ facts.aliasBound

/-- The type of a member, if it has an alias name. -/
def nestedType? (member : MemberId) : Option TypeId :=
  (facts.memberType member).run.filter fun type => facts.IsAliased type

/-- The types with alias names that the members of a type have, in order. -/
def nestedTypes (type : TypeId) : List TypeId :=
  (facts.members type).run.filterMap facts.nestedType?

theorem mem_nestedTypes {type nested : TypeId} :
    nested ∈ facts.nestedTypes type ↔ facts.IsAliased nested ∧
      ∃ member ∈ (facts.members type).run, (facts.memberType member).run = some nested := by
  simp only [nestedTypes, List.mem_filterMap, nestedType?, Option.filter_eq_some_iff,
    decide_eq_true_eq]
  constructor
  · rintro ⟨member, hmem, htype, halias⟩
    exact ⟨halias, member, hmem, htype⟩
  · rintro ⟨halias, member, hmem, htype⟩
    exact ⟨member, hmem, htype, halias⟩

/-- One type is reached from another through members whose types have alias names. -/
def Leads : TypeId → TypeId → Prop :=
  ReflTransGen fun type nested => nested ∈ facts.nestedTypes type

/-! ## Expansion -/

/-- The types found from `type` on along every path of nested types that meets no type twice and
none of those on `path`, inner ones first. The first argument bounds the length of a path. -/
def expansion (facts : TypeFacts Id) : Nat → List TypeId → TypeId → List TypeId
  | 0, _, _ => []
  | depth + 1, path, type =>
    if type ∈ path then []
    else (facts.nestedTypes type).flatMap (facts.expansion depth (type :: path)) ++ [type]

/-- The types found from `type` on, itself included. -/
def expansionOf (type : TypeId) : List TypeId :=
  (facts.nestedTypes type).flatMap (facts.expansion facts.aliasBound [type]) ++ [type]

/-- `depth` more types with alias names than there are on `path` are all there can be. -/
structure Deep (depth : Nat) (path : List TypeId) : Prop where
  nodup : path.Nodup
  enough : facts.aliasBound ≤ depth + (path.filter fun type => facts.IsAliased type).length

variable {facts}

theorem expansion_of_mem {depth : Nat} {path : List TypeId} {type : TypeId} (h : type ∈ path) :
    facts.expansion depth path type = [] := by
  cases depth with
  | zero => rfl
  | succ depth => rw [expansion, if_pos h]

theorem expansion_of_notMem {depth : Nat} {path : List TypeId} {type : TypeId} (h : type ∉ path) :
    facts.expansion (depth + 1) path type =
      (facts.nestedTypes type).flatMap (facts.expansion depth (type :: path)) ++ [type] := by
  rw [expansion, if_neg h]

/-- Nothing on the path is found again. -/
theorem notMem_path_of_mem_expansion {depth : Nat} {path : List TypeId} {type found : TypeId}
    (h : found ∈ facts.expansion depth path type) : found ∉ path := by
  induction depth generalizing path type with
  | zero => cases h
  | succ depth ih =>
    by_cases hp : type ∈ path
    · rw [expansion_of_mem hp] at h
      cases h
    · rw [expansion_of_notMem hp, List.mem_append, List.mem_flatMap, List.mem_singleton] at h
      rcases h with ⟨nested, -, hfound⟩ | rfl
      · exact fun hm => ih hfound (List.mem_cons_of_mem _ hm)
      · exact hp

theorem Deep.root (facts : TypeFacts Id) (type : TypeId) : facts.Deep facts.aliasBound [type] :=
  ⟨List.nodup_singleton type, Nat.le_add_right ..⟩

theorem Deep.step {depth : Nat} {path : List TypeId} {type : TypeId}
    (h : facts.Deep (depth + 1) path) (halias : facts.IsAliased type) (hp : type ∉ path) :
    facts.Deep depth (type :: path) := by
  refine ⟨List.nodup_cons.2 ⟨hp, h.nodup⟩, ?_⟩
  have := h.enough
  rw [List.filter_cons_of_pos (by simpa using halias), List.length_cons]
  omega

/-- A bounded descent does not stop short of a type that is not on the path. -/
theorem Deep.pos (bounded : facts.AliasBounded) {depth : Nat} {path : List TypeId} {type : TypeId}
    (h : facts.Deep depth path) (halias : facts.IsAliased type) (hp : type ∉ path) : 0 < depth := by
  have hnodup : (type :: path.filter fun type => facts.IsAliased type).Nodup :=
    List.nodup_cons.2 ⟨fun hm => hp (List.mem_of_mem_filter hm), h.nodup.filter _⟩
  have hle := bounded _ hnodup (by
    intro other ho
    rcases List.mem_cons.1 ho with rfl | ho
    · exact halias
    · simpa using (List.mem_filter.1 ho).2)
  have := h.enough
  rw [List.length_cons] at hle
  omega

theorem mem_expansion_self (bounded : facts.AliasBounded) {depth : Nat} {path : List TypeId}
    {type : TypeId} (h : facts.Deep depth path) (halias : facts.IsAliased type)
    (hp : type ∉ path) : type ∈ facts.expansion depth path type := by
  obtain ⟨depth, rfl⟩ := Nat.exists_eq_add_of_lt (h.pos bounded halias hp)
  rw [Nat.zero_add, expansion_of_notMem hp]
  exact List.mem_append_right _ (List.mem_singleton_self _)

/-- A type below the one that is expanded is found, unless it is on the path. -/
theorem mem_nested_expansion (bounded : facts.AliasBounded) {depth : Nat} {path : List TypeId}
    {type nested : TypeId} (h : facts.Deep depth path) (hn : nested ∈ facts.nestedTypes type) :
    nested ∈ path ∨ nested ∈ (facts.nestedTypes type).flatMap (facts.expansion depth path) := by
  by_cases hp : nested ∈ path
  · exact .inl hp
  · have halias := (facts.mem_nestedTypes.1 hn).1
    exact .inr (List.mem_flatMap.2 ⟨nested, hn, mem_expansion_self bounded h halias hp⟩)

/-- What a found type leads to is found too, or is on the path. -/
theorem expansion_closed (bounded : facts.AliasBounded) {depth : Nat} {path : List TypeId}
    {type found nested : TypeId} (h : facts.Deep depth path) (halias : facts.IsAliased type)
    (hf : found ∈ facts.expansion depth path type) (hn : nested ∈ facts.nestedTypes found) :
    nested ∈ facts.expansion depth path type ∨ nested ∈ path := by
  induction depth generalizing path type with
  | zero => cases hf
  | succ depth ih =>
    by_cases hp : type ∈ path
    · rw [expansion_of_mem hp] at hf
      cases hf
    · have hd := h.step halias hp
      rw [expansion_of_notMem hp] at hf ⊢
      have below : nested ∈ (facts.nestedTypes type).flatMap
          (facts.expansion depth (type :: path)) ∨ nested ∈ type :: path := by
        rcases List.mem_append.1 hf with hf | hf
        · obtain ⟨child, hc, hf⟩ := List.mem_flatMap.1 hf
          rcases ih hd (facts.mem_nestedTypes.1 hc).1 hf with hm | hm
          · exact .inl (List.mem_flatMap.2 ⟨child, hc, hm⟩)
          · exact .inr hm
        · rw [List.mem_singleton.1 hf] at hn
          exact (mem_nested_expansion bounded hd hn).symm
      rcases below with hm | hm
      · exact .inl (List.mem_append_left _ hm)
      · rcases List.mem_cons.1 hm with rfl | hm
        · exact .inl (List.mem_append_right _ (List.mem_singleton_self _))
        · exact .inr hm

/-- Below a type of a set that is closed up to the path, nothing outside the set is found. -/
theorem expansion_subset {types path : List TypeId} {depth : Nat} {type found : TypeId}
    (closed : ∀ type ∈ types, ∀ nested ∈ facts.nestedTypes type, nested ∈ types ∨ nested ∈ path)
    (ht : type ∈ types) (hf : found ∈ facts.expansion depth path type) : found ∈ types := by
  induction depth generalizing path type with
  | zero => cases hf
  | succ depth ih =>
    by_cases hp : type ∈ path
    · rw [expansion_of_mem hp] at hf
      cases hf
    · rw [expansion_of_notMem hp] at hf
      rcases List.mem_append.1 hf with hf | hf
      · obtain ⟨child, hc, hf⟩ := List.mem_flatMap.1 hf
        rcases closed type ht child hc with hm | hm
        · refine ih (fun other ho nested hn => ?_) hm hf
          exact (closed other ho nested hn).imp_right (List.mem_cons_of_mem _)
        · rw [expansion_of_mem (List.mem_cons_of_mem _ hm)] at hf
          cases hf
      · rwa [List.mem_singleton.1 hf]

theorem expansionOf_subset {types : List TypeId} {type found : TypeId}
    (closed : ∀ type ∈ types, ∀ nested ∈ facts.nestedTypes type, nested ∈ types)
    (ht : type ∈ types) (hf : found ∈ facts.expansionOf type) : found ∈ types := by
  rcases List.mem_append.1 hf with hf | hf
  · obtain ⟨child, hc, hf⟩ := List.mem_flatMap.1 hf
    exact expansion_subset (fun other ho nested hn => .inl (closed other ho nested hn))
      (closed type ht child hc) hf
  · rwa [List.mem_singleton.1 hf]

theorem mem_expansionOf_self (type : TypeId) : type ∈ facts.expansionOf type :=
  List.mem_append_right _ (List.mem_singleton_self _)

/-- The expansion of a type is closed under what its types lead to. -/
theorem expansionOf_closed (bounded : facts.AliasBounded) {type found nested : TypeId}
    (hf : found ∈ facts.expansionOf type) (hn : nested ∈ facts.nestedTypes found) :
    nested ∈ facts.expansionOf type := by
  have hd := Deep.root facts type
  have below : nested ∈ (facts.nestedTypes type).flatMap
      (facts.expansion facts.aliasBound [type]) ∨ nested ∈ [type] := by
    rcases List.mem_append.1 hf with hf | hf
    · obtain ⟨child, hc, hf⟩ := List.mem_flatMap.1 hf
      rcases expansion_closed bounded hd (facts.mem_nestedTypes.1 hc).1 hf hn with hm | hm
      · exact .inl (List.mem_flatMap.2 ⟨child, hc, hm⟩)
      · exact .inr hm
    · rw [List.mem_singleton.1 hf] at hn
      exact (mem_nested_expansion bounded hd hn).symm
  exact List.mem_append.2 below

/-! ## Order -/

/-- Every listed type comes after what it leads to, except for what leads back to it; `before` is
what comes before the list. -/
def Settled (facts : TypeFacts Id) : List TypeId → List TypeId → Prop
  | _, [] => True
  | before, type :: rest =>
    (∀ nested ∈ facts.nestedTypes type, nested ∈ before ∨ facts.Leads nested type) ∧
      Settled facts (type :: before) rest

theorem settled_mono {before before' types : List TypeId} (hsub : before ⊆ before')
    (h : facts.Settled before types) : facts.Settled before' types := by
  induction types generalizing before before' with
  | nil => trivial
  | cons type rest ih =>
    refine ⟨fun nested hn => (h.1 nested hn).imp_left fun hm => hsub hm, ?_⟩
    exact ih (List.cons_subset_cons type hsub) h.2

theorem settled_append {before first second : List TypeId} (h : facts.Settled before first)
    (h' : facts.Settled (first ++ before) second) : facts.Settled before (first ++ second) := by
  induction first generalizing before with
  | nil => exact h'
  | cons type rest ih =>
    refine ⟨h.1, ih h.2 (settled_mono ?_ h')⟩
    intro other ho
    simp only [List.cons_append, List.mem_cons, List.mem_append] at ho ⊢
    tauto

theorem settled_flatMap {expand : TypeId → List TypeId} {types before : List TypeId}
    (h : ∀ type ∈ types, ∀ before, facts.Settled before (expand type)) :
    facts.Settled before (types.flatMap expand) := by
  induction types generalizing before with
  | nil => trivial
  | cons type rest ih =>
    rw [List.flatMap_cons]
    exact settled_append (h type List.mem_cons_self before)
      (ih fun other ho => h other (List.mem_cons_of_mem _ ho))

/-- The types on the path are those the expanded type was reached through. -/
theorem settled_expansion (bounded : facts.AliasBounded) {depth : Nat} {path : List TypeId}
    {type : TypeId} (h : facts.Deep depth path) (halias : facts.IsAliased type)
    (hlead : ∀ outer ∈ path, facts.Leads outer type) (before : List TypeId) :
    facts.Settled before (facts.expansion depth path type) := by
  induction depth generalizing path type before with
  | zero => trivial
  | succ depth ih =>
    by_cases hp : type ∈ path
    · rw [expansion_of_mem hp]
      trivial
    · have hd := h.step halias hp
      have hlead' : ∀ outer ∈ type :: path, facts.Leads outer type := fun outer ho => by
        rcases List.mem_cons.1 ho with rfl | ho
        · exact .refl
        · exact hlead outer ho
      rw [expansion_of_notMem hp]
      refine settled_append (settled_flatMap fun child hc before => ?_) ⟨fun nested hn => ?_, trivial⟩
      · exact ih hd (facts.mem_nestedTypes.1 hc).1 (fun outer ho => (hlead' outer ho).tail hc) before
      · rcases mem_nested_expansion bounded hd hn with hm | hm
        · exact .inr (hlead' nested hm)
        · exact .inl (List.mem_append_left _ hm)

theorem settled_expansionOf (bounded : facts.AliasBounded) (type : TypeId) (before : List TypeId) :
    facts.Settled before (facts.expansionOf type) := by
  have hd := Deep.root facts type
  refine settled_append (settled_flatMap fun child hc before => ?_) ⟨fun nested hn => ?_, trivial⟩
  · refine settled_expansion bounded hd (facts.mem_nestedTypes.1 hc).1 (fun outer ho => ?_) before
    rw [List.mem_singleton.1 ho]
    exact .single hc
  · rcases mem_nested_expansion bounded hd hn with hm | hm
    · rw [List.mem_singleton.1 hm]
      exact .inr .refl
    · exact .inl (List.mem_append_left _ hm)

/-- Leaving out later mentions of a type keeps the order. -/
theorem settled_firstMentions {before seen types : List TypeId} (hseen : seen ⊆ before)
    (h : facts.Settled before types) : facts.Settled before (firstMentions seen types) := by
  induction types generalizing before seen with
  | nil => trivial
  | cons type rest ih =>
    by_cases hm : type ∈ seen
    · rw [firstMentions_cons_of_mem hm]
      refine ih hseen (settled_mono (fun other ho => ?_) h.2)
      rcases List.mem_cons.1 ho with rfl | ho
      · exact hseen hm
      · exact ho
    · rw [firstMentions_cons_of_notMem hm]
      exact ⟨h.1, ih (List.cons_subset_cons type hseen) h.2⟩

theorem settled_getElem {before types : List TypeId} (h : facts.Settled before types) {i : Nat}
    {type nested : TypeId} (hi : types[i]? = some type) (hn : nested ∈ facts.nestedTypes type) :
    nested ∈ before ∨ (∃ j < i, types[j]? = some nested) ∨ facts.Leads nested type := by
  induction types generalizing before i with
  | nil => cases hi
  | cons first rest ih =>
    cases i with
    | zero =>
      cases hi
      exact (h.1 nested hn).imp_right .inr
    | succ i =>
      rcases ih h.2 hi with hm | ⟨j, hj, hget⟩ | hl
      · rcases List.mem_cons.1 hm with rfl | hm
        · exact .inr (.inl ⟨0, Nat.zero_lt_succ i, rfl⟩)
        · exact .inl hm
      · exact .inr (.inl ⟨j + 1, Nat.succ_lt_succ hj, hget⟩)
      · exact .inr (.inr hl)

end TypeFacts

end ComponentSchema
