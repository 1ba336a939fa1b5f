import ComponentSchema.Proofs.Extractor.TypeExpansion

/-!
# What an extractor appends

An extractor is started on a type with some types on its path and some already appended. Here its
answer and its state afterwards are given in terms of the type's expansion: it appends the schemas
of the expansion, in `dedupe` mode those of first mentions only, and leaves its path as it was.

`Tidy` is the invariant: names are remembered right, and what an appended type leads to was appended
or is on the path. The second half is what makes it safe to skip a type that was appended while other
types were on the path.

Results.
* `expand_eq`, `extract_eq`, `extractInto_eq`: the steps of an extraction.
* `Tidy.noted`: the invariant afterwards.
-/
namespace ComponentSchema

namespace Extractor

/-- The types already appended. -/
def done (extractor : Extractor) : List TypeId := extractor.emitted.map Prod.fst

/-- Those of a list of types whose schemas are appended when the types are met in this order. -/
def kept (extractor : Extractor) (mode : SchemaMode) (types : List TypeId) : List TypeId :=
  match mode with
  | .repeated => types
  | .dedupe => firstMentions extractor.done types

theorem isSome_emittedName? (extractor : Extractor) (type : TypeId) :
    (extractor.emittedName? type).isSome ↔ type ∈ extractor.done := by
  rw [emittedName?, List.lookup_isSome_iff, done, List.mem_map]
  constructor
  · rintro ⟨entry, hmem, heq⟩
    exact ⟨entry, hmem, (beq_iff_eq.1 heq).symm⟩
  · rintro ⟨entry, hmem, rfl⟩
    exact ⟨entry, hmem, beq_self_eq_true _⟩

theorem kept_nil (extractor : Extractor) (mode : SchemaMode) : extractor.kept mode [] = [] := by
  cases mode <;> rfl

@[simp] theorem enter_kept (extractor : Extractor) (type : TypeId) (mode : SchemaMode) :
    (extractor.enter type).kept mode = extractor.kept mode := rfl

@[simp] theorem leave_enter (extractor : Extractor) (type : TypeId) :
    (extractor.enter type).leave type = extractor := by
  simp [enter, leave]

end Extractor

namespace TypeFacts

variable {facts : TypeFacts Id} {mode : SchemaMode} {extractor : Extractor}

/-- The extractor after the schemas of `types` were appended. -/
def noted (facts : TypeFacts Id) (mode : SchemaMode) (extractor : Extractor)
    (types : List TypeId) : Extractor :=
  types.foldl (fun extractor type => extractor.record mode type (facts.schemaName type).run) extractor

theorem noted_append (first second : List TypeId) :
    facts.noted mode extractor (first ++ second) =
      facts.noted mode (facts.noted mode extractor first) second :=
  List.foldl_append

theorem noted_repeated (types : List TypeId) : facts.noted .repeated extractor types = extractor := by
  induction types with
  | nil => rfl
  | cons type rest ih => exact ih

theorem noted_expanding (types : List TypeId) :
    (facts.noted mode extractor types).expanding = extractor.expanding := by
  induction types generalizing extractor with
  | nil => rfl
  | cons type rest ih =>
    refine ih.trans ?_
    cases mode <;> rfl

theorem noted_enter (type : TypeId) (types : List TypeId) :
    facts.noted mode (extractor.enter type) types = (facts.noted mode extractor types).enter type := by
  induction types generalizing extractor with
  | nil => rfl
  | cons other rest ih =>
    have hrecord : (extractor.enter type).record mode other (facts.schemaName other).run =
        (extractor.record mode other (facts.schemaName other).run).enter type := by cases mode <;> rfl
    exact (congrArg (facts.noted mode · rest) hrecord).trans ih

theorem noted_done_dedupe (types : List TypeId) :
    (facts.noted .dedupe extractor types).done = types.reverse ++ extractor.done := by
  induction types generalizing extractor with
  | nil => rfl
  | cons type rest ih =>
    rw [List.reverse_cons, List.append_assoc]
    exact ih

theorem kept_append (facts : TypeFacts Id) (first second : List TypeId) :
    extractor.kept mode (first ++ second) = extractor.kept mode first ++
      (facts.noted mode extractor (extractor.kept mode first)).kept mode second := by
  cases mode with
  | repeated => rfl
  | dedupe =>
    simp only [Extractor.kept, noted_done_dedupe, firstMentions_append]
    congr 1
    refine firstMentions_congr fun type => ?_
    simp only [List.mem_append, List.mem_reverse, mem_firstMentions]
    tauto

/-! ## The invariant -/

/-- What holds of an extractor between two steps. -/
structure Tidy (facts : TypeFacts Id) (mode : SchemaMode) (extractor : Extractor) : Prop where
  named : ∀ entry ∈ extractor.emitted, entry.2 = (facts.schemaName entry.1).run
  closed : ∀ type ∈ extractor.done, ∀ nested ∈ facts.nestedTypes type,
    nested ∈ extractor.done ∨ nested ∈ extractor.expanding
  repeated : mode = .repeated → extractor.emitted = []

theorem Tidy.fresh (facts : TypeFacts Id) (mode : SchemaMode) : facts.Tidy mode Extractor.fresh :=
  ⟨(fun _ h => by cases h), (fun _ h => by cases h), fun _ => rfl⟩

theorem Tidy.enter (h : facts.Tidy mode extractor) (type : TypeId) :
    facts.Tidy mode (extractor.enter type) :=
  ⟨h.named, fun other ho nested hn => (h.closed other ho nested hn).imp_right
    (List.mem_cons_of_mem _), h.repeated⟩

theorem Tidy.emittedName?_eq (h : facts.Tidy mode extractor) {type : TypeId} {name : String}
    (hname : extractor.emittedName? type = some name) : name = (facts.schemaName type).run := by
  obtain ⟨before, after, hsplit, -⟩ := List.lookup_eq_some_iff.1 hname
  exact h.named (type, name) (by rw [hsplit]; simp)

theorem noted_named (types : List TypeId)
    (h : ∀ entry ∈ extractor.emitted, entry.2 = (facts.schemaName entry.1).run) :
    ∀ entry ∈ (facts.noted mode extractor types).emitted,
      entry.2 = (facts.schemaName entry.1).run := by
  induction types generalizing extractor with
  | nil => exact h
  | cons type rest ih =>
    refine ih fun entry he => ?_
    cases mode with
    | repeated => exact h entry he
    | dedupe =>
      rcases List.mem_cons.1 he with rfl | he
      · rfl
      · exact h entry he

/-- The invariant survives an extraction whose types lead to each other or to the path. -/
theorem Tidy.noted (h : facts.Tidy mode extractor) {types : List TypeId}
    (closed : ∀ type ∈ types, ∀ nested ∈ facts.nestedTypes type,
      nested ∈ types ∨ nested ∈ extractor.expanding) :
    facts.Tidy mode (facts.noted mode extractor (extractor.kept mode types)) := by
  cases mode with
  | repeated => rwa [noted_repeated]
  | dedupe =>
    have hdone : ∀ type, type ∈ (facts.noted .dedupe extractor (extractor.kept .dedupe types)).done ↔
        type ∈ types ∨ type ∈ extractor.done := fun type => by
      simp only [Extractor.kept, noted_done_dedupe, List.mem_append, List.mem_reverse,
        mem_firstMentions]
      tauto
    refine ⟨noted_named _ h.named, fun type ht nested hn => ?_, fun hmode => by cases hmode⟩
    rw [hdone, noted_expanding]
    rcases (hdone type).1 ht with ht | ht
    · exact (closed type ht nested hn).imp_left .inl
    · exact (h.closed type ht nested hn).imp_left .inr

/-! ## The steps of an extraction -/

/-- What `expand` has to do below a type so that the type's own properties come out right. -/
structure Expands (facts : TypeFacts Id) (mode : SchemaMode) (path : List TypeId)
    (found : TypeId → List TypeId) (expand : TypeId → Extractor → Id (Extracted Unit)) : Prop where
  eq : ∀ type extractor, facts.IsAliased type → facts.Tidy mode extractor →
    extractor.expanding = path →
    expand type extractor = ⟨(), (extractor.kept mode (found type)).map facts.ownSchema,
      facts.noted mode extractor (extractor.kept mode (found type))⟩
  closed : ∀ type, facts.IsAliased type → ∀ inner ∈ found type, ∀ nested ∈ facts.nestedTypes inner,
    nested ∈ found type ∨ nested ∈ path

variable {path : List TypeId} {found : TypeId → List TypeId}
  {expand : TypeId → Extractor → Id (Extracted Unit)}

theorem property_eq (he : facts.Expands mode path found expand) (member : MemberId)
    (h : facts.Tidy mode extractor) (hp : extractor.expanding = path) :
    facts.property expand member extractor = ⟨facts.ownProperty member,
      (extractor.kept mode ((facts.nestedType? member).toList.flatMap found)).map facts.ownSchema,
      facts.noted mode extractor
        (extractor.kept mode ((facts.nestedType? member).toList.flatMap found))⟩ := by
  simp only [property, ownProperty, nestedType?, Id.run, bind, pure]
  rcases facts.memberType member with _ | type
  · simp [extractor.kept_nil, TypeFacts.noted]
  · rcases ha : facts.aliasName type with _ | name
    · have hn : ¬ facts.IsAliased type := by simp [IsAliased, ha, Id.run]
      simp [Option.filter, hn, extractor.kept_nil, TypeFacts.noted, ha]
    · have hn : facts.IsAliased type := by simp [IsAliased, ha, Id.run]
      simp [Option.filter, hn, ha, he.eq type extractor hn h hp]

theorem properties_eq (he : facts.Expands mode path found expand) (members : List MemberId)
    (h : facts.Tidy mode extractor) (hp : extractor.expanding = path) :
    facts.properties expand members extractor = ⟨members.map facts.ownProperty,
      (extractor.kept mode ((members.filterMap facts.nestedType?).flatMap found)).map facts.ownSchema,
      facts.noted mode extractor
        (extractor.kept mode ((members.filterMap facts.nestedType?).flatMap found))⟩ := by
  induction members generalizing extractor with
  | nil => simp [properties, extractor.kept_nil, TypeFacts.noted, pure]
  | cons member rest ih =>
    have hsplit : ((member :: rest).filterMap facts.nestedType?).flatMap found =
        (facts.nestedType? member).toList.flatMap found ++
          (rest.filterMap facts.nestedType?).flatMap found := by
      rw [List.filterMap_cons]
      cases facts.nestedType? member <;> simp
    have hclosed : ∀ type ∈ (facts.nestedType? member).toList.flatMap found,
        ∀ nested ∈ facts.nestedTypes type,
        nested ∈ (facts.nestedType? member).toList.flatMap found ∨ nested ∈ path := by
      intro type ht nested hn
      obtain ⟨outer, ho, ht⟩ := List.mem_flatMap.1 ht
      have halias : facts.IsAliased outer := by
        simpa using (Option.filter_eq_some_iff.1 (Option.mem_toList.1 ho)).2
      exact (he.closed outer halias type ht nested hn).imp_left
        fun hm => List.mem_flatMap.2 ⟨outer, ho, hm⟩
    rw [← hp] at hclosed
    have hnext := h.noted hclosed
    simp only [properties, bind, pure, property_eq he member h hp,
      ih hnext ((noted_expanding _).trans hp), hsplit, kept_append facts, noted_append,
      List.map_append, List.map_cons]

/-- The schema of a type is its own, whatever was met before. -/
theorem schemaOf_eq {type : TypeId} (he : facts.Expands mode (type :: extractor.expanding) found expand)
    (h : facts.Tidy mode extractor) :
    facts.schemaOf expand type extractor = ⟨facts.ownSchema type,
      (extractor.kept mode ((facts.nestedTypes type).flatMap found)).map facts.ownSchema,
      facts.noted mode extractor (extractor.kept mode ((facts.nestedTypes type).flatMap found))⟩ := by
  simp only [schemaOf, bind, pure, properties_eq he _ (h.enter type) rfl, noted_enter,
    Extractor.leave_enter, Extractor.enter_kept]
  rfl

/-- A type that was not met before is appended after those found below it. -/
theorem kept_below_self {type : TypeId} {below : List TypeId} (hb : type ∉ below)
    (hd : type ∉ extractor.done) :
    extractor.kept mode (below ++ [type]) = extractor.kept mode below ++ [type] := by
  cases mode with
  | repeated => rfl
  | dedupe =>
    have hseen : type ∉ below ++ extractor.done := by simp [hb, hd]
    simp only [Extractor.kept, firstMentions_append, firstMentions_cons_of_notMem hseen]
    simp [firstMentions]

/-- A type that was appended before has nothing new below it. -/
theorem kept_eq_nil (h : facts.Tidy mode extractor) {type : TypeId} (types : List TypeId)
    (hd : type ∈ extractor.done) (hall : ∀ other ∈ types, other ∈ extractor.done) :
    extractor.kept mode types = [] := by
  cases mode with
  | repeated =>
    rw [Extractor.done, h.repeated rfl] at hd
    cases hd
  | dedupe => exact firstMentions_eq_nil hall

theorem expand_eq (bounded : facts.AliasBounded) {depth : Nat} {type : TypeId}
    (hdeep : facts.Deep depth extractor.expanding) (halias : facts.IsAliased type)
    (h : facts.Tidy mode extractor) :
    facts.expand mode depth type extractor = ⟨(),
      (extractor.kept mode (facts.expansion depth extractor.expanding type)).map facts.ownSchema,
      facts.noted mode extractor
        (extractor.kept mode (facts.expansion depth extractor.expanding type))⟩ := by
  induction depth generalizing type extractor with
  | zero => simp [expand, expansion, extractor.kept_nil, noted, pure]
  | succ depth ih =>
    by_cases hp : type ∈ extractor.expanding
    · simp [expand, hp, expansion_of_mem hp, extractor.kept_nil, noted, pure]
    by_cases hm : type ∈ extractor.done
    · have hkept := kept_eq_nil h (facts.expansion (depth + 1) extractor.expanding type) hm
        fun other ho => expansion_subset h.closed hm ho
      simp [expand, (extractor.isSome_emittedName? type).2 hm, hkept, noted, pure]
    · have hstep := hdeep.step halias hp
      have he : facts.Expands mode (type :: extractor.expanding)
          (facts.expansion depth (type :: extractor.expanding)) (facts.expand mode depth) :=
        ⟨fun other extractor' ha ht hx => by rw [← hx] at hstep ⊢; exact ih hstep ha ht,
          fun other ha inner hi nested hn => expansion_closed bounded hstep ha hi hn⟩
      have hbelow : type ∉ (facts.nestedTypes type).flatMap
          (facts.expansion depth (type :: extractor.expanding)) := fun hx => by
        obtain ⟨child, -, hx⟩ := List.mem_flatMap.1 hx
        exact notMem_path_of_mem_expansion hx List.mem_cons_self
      have hnone : (extractor.emittedName? type).isSome = false := by
        rw [Bool.eq_false_iff, ne_eq, Extractor.isSome_emittedName?]
        exact hm
      simp only [expand, hp, hnone, decide_false, Bool.or_false, Bool.false_eq_true, if_false, bind,
        pure, schemaOf_eq he h, expansion_of_notMem hp, kept_below_self hbelow hm, List.map_append,
        noted_append]
      rfl

/-- What `expand` does on a fresh path. -/
theorem expands_root (bounded : facts.AliasBounded) (mode : SchemaMode) (type : TypeId) :
    facts.Expands mode [type] (facts.expansion facts.aliasBound [type])
      (facts.expand mode facts.aliasBound) where
  eq other extractor ha ht hx := by
    have hdeep := Deep.root facts type
    rw [← hx] at hdeep ⊢
    exact expand_eq bounded hdeep ha ht
  closed other ha inner hi nested hn :=
    expansion_closed bounded (Deep.root facts type) ha hi hn

theorem extract_eq (bounded : facts.AliasBounded) {type : TypeId} (h : facts.Tidy mode extractor)
    (hroot : extractor.expanding = []) :
    facts.extract mode type extractor = ⟨facts.ownSchema type,
      (extractor.kept mode ((facts.nestedTypes type).flatMap
        (facts.expansion facts.aliasBound [type]))).map facts.ownSchema,
      facts.noted mode extractor (extractor.kept mode ((facts.nestedTypes type).flatMap
        (facts.expansion facts.aliasBound [type])))⟩ := by
  have he := expands_root bounded mode type
  rw [← hroot] at he
  rw [extract, schemaOf_eq he h, hroot]

theorem extractInto_eq (bounded : facts.AliasBounded) {type : TypeId} (h : facts.Tidy mode extractor)
    (hroot : extractor.expanding = []) :
    facts.extractInto mode type extractor = ⟨(facts.schemaName type).run,
      (extractor.kept mode (facts.expansionOf type)).map facts.ownSchema,
      facts.noted mode extractor (extractor.kept mode (facts.expansionOf type))⟩ := by
  cases hname : extractor.emittedName? type with
  | some name =>
    have hm : type ∈ extractor.done := (extractor.isSome_emittedName? type).1 (by rw [hname]; rfl)
    have hclosed : ∀ other ∈ extractor.done, ∀ nested ∈ facts.nestedTypes other,
        nested ∈ extractor.done := fun other ho nested hn => by
      rcases h.closed other ho nested hn with hx | hx
      · exact hx
      · rw [hroot] at hx
        cases hx
    have hkept := kept_eq_nil h (facts.expansionOf type) hm
      fun other => expansionOf_subset hclosed hm
    simp [extractInto, hname, hkept, noted, pure, h.emittedName?_eq hname]
  | none =>
    have hm : type ∉ extractor.done := by
      rw [← Extractor.isSome_emittedName?, hname]
      exact Bool.false_ne_true
    have hbelow : type ∉ (facts.nestedTypes type).flatMap
        (facts.expansion facts.aliasBound [type]) := fun hx => by
      obtain ⟨child, -, hx⟩ := List.mem_flatMap.1 hx
      exact notMem_path_of_mem_expansion hx List.mem_cons_self
    simp only [extractInto, hname, bind, pure, extract_eq bounded h hroot, expansionOf,
      kept_below_self hbelow hm, List.map_append, noted_append]
    rfl

end TypeFacts

end ComponentSchema
