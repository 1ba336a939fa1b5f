import ComponentSchema.Document
import ComponentSchema.Facts.Table
import ComponentSchema.Proofs.Extractor.AppendedSchemas

/-!
# What a document holds

The document of a program in terms of the declarations that are visited and of the expansions of
their props types. `metTypes` lists the types whose schemas are due, as often as they are met;
`documentedTypes` lists those whose schemas are in the document.

Results.
* `document_eq`: the components, the classes and the schemas of a document.
* `document_dedupe_eraseDups`: the two modes differ in repeated schemas only.
* `document_names_schemas`: every name that stands for a schema has that schema in the document.
* `document_nested_first`: a schema comes after those it refers to.
* `FactTable.aliasBounded`: the facts of a table are finite.
-/
namespace ComponentSchema

/-! ## Tables are finite -/

theorem countP_range_getElem? {α : Type} (p : α → Bool) (list : List α) :
    (List.range list.length).countP (fun index => list[index]?.any p) = list.countP p := by
  induction list with
  | nil => rfl
  | cons first rest ih =>
    rw [List.length_cons, List.range_succ_eq_map, List.countP_cons, List.countP_map, List.countP_cons,
      ← ih]
    rfl

/-- No more different places of an array hold what is counted than are counted. -/
theorem length_le_countP {α : Type} {p : α → Bool} {items : Array α} {places : List Nat}
    (hnodup : places.Nodup) (hp : ∀ i ∈ places, items[i]?.any p = true) :
    places.length ≤ items.countP p := by
  let counted := (List.range items.toList.length).filter fun i => items.toList[i]?.any p
  have hsub : places ⊆ counted := by
    intro i hi
    have hany := hp i hi
    rw [← Array.getElem?_toList] at hany
    rw [List.mem_filter, List.mem_range]
    cases hget : items.toList[i]? with
    | none => simp [hget] at hany
    | some item => exact ⟨(List.getElem?_eq_some_iff.1 hget).1, by rwa [hget] at hany⟩
  calc places.length ≤ counted.length := hnodup.length_le_of_subset hsub
    _ = items.toList.countP p := by rw [← countP_range_getElem?, List.countP_eq_length_filter]
    _ = items.countP p := Array.countP_toList

/-- A table has no more types with alias names than rows with alias names. -/
theorem FactTable.aliasBounded (table : FactTable) : table.facts.AliasBounded := by
  intro types hnodup halias
  have hindex : (types.map TypeId.index).Nodup :=
    hnodup.map fun first second h => by cases first; cases second; exact congrArg _ h
  rw [← List.length_map TypeId.index]
  refine length_le_countP hindex fun i hi => ?_
  obtain ⟨type, ht, rfl⟩ := List.mem_map.1 hi
  have hsome : (table.typeRow type).aliasName.isSome = true := halias type ht
  rw [typeRow] at hsome
  cases hget : table.types[type.index]? with
  | none => simp [hget] at hsome
  | some row => simpa [hget] using hsome

namespace TypeFacts

variable (facts : TypeFacts Id)

/-! ## What is visited -/

/-- The functions, variables and classes that are visited, in order, with the paths of their
files. -/
def visited : List (String × Declaration) :=
  facts.files.flatMap fun file =>
    (file.declarations.flatMap Declaration.visited).map (file.path, ·)

/-- The component that a visited declaration is. -/
def candidate? (entry : String × Declaration) : Option Candidate := (facts.classify entry.2).run

/-- The type that the props of a component resolve to. -/
def propsType? (candidate : Candidate) : Option TypeId :=
  candidate.props.bind fun node => (facts.typeOf node).run

/-- The entry of a component in the document. -/
def component (candidate : Candidate) : Component :=
  ⟨candidate.name, (facts.propsType? candidate).map fun type => (facts.schemaName type).run⟩

/-- The entry of a visited class. -/
def classEntry? : String × Declaration → Option DocEntry
  | (path, .classDecl declaration) => some (facts.classEntry path declaration)
  | _ => none

/-- The types met below the props of a list of components, as often as they are met. -/
def typesBelow (candidates : List Candidate) : List TypeId :=
  (candidates.filterMap facts.propsType?).flatMap facts.expansionOf

/-- The components of a program, in the order in which they are visited. -/
def candidates : List Candidate := facts.visited.filterMap facts.candidate?

/-- The types met in a program, as often as they are met. -/
def metTypes : List TypeId := facts.typesBelow facts.candidates

/-- The types whose schemas are in the document, in order. -/
def documentedTypes (mode : SchemaMode) : List TypeId :=
  match mode with
  | .repeated => facts.metTypes
  | .dedupe => facts.metTypes.eraseDups

/-! ## The traversal -/

variable {facts} {mode : SchemaMode}

/-- The traversal after some more declarations. -/
def after (facts : TypeFacts Id) (mode : SchemaMode) (traversal : Traversal)
    (entries : List (String × Declaration)) : Traversal :=
  let kept := traversal.extractor.kept mode (facts.typesBelow (entries.filterMap facts.candidate?))
  { document := {
      types := traversal.document.types ++ kept.map facts.ownSchema
      components := traversal.document.components ++
        (entries.filterMap facts.candidate?).map facts.component
      classes := traversal.document.classes ++ entries.filterMap facts.classEntry? }
    extractor := facts.noted mode traversal.extractor kept }

/-- What holds between two declarations. -/
structure Between (facts : TypeFacts Id) (mode : SchemaMode) (traversal : Traversal) : Prop where
  tidy : facts.Tidy mode traversal.extractor
  root : traversal.extractor.expanding = []

theorem Between.start (facts : TypeFacts Id) (mode : SchemaMode) :
    facts.Between mode Traversal.start := ⟨.fresh facts mode, rfl⟩

theorem typesBelow_append (first second : List Candidate) :
    facts.typesBelow (first ++ second) = facts.typesBelow first ++ facts.typesBelow second := by
  simp [typesBelow]

theorem typesBelow_closed (bounded : facts.AliasBounded) (candidates : List Candidate) :
    ∀ type ∈ facts.typesBelow candidates, ∀ nested ∈ facts.nestedTypes type,
      nested ∈ facts.typesBelow candidates := by
  intro type ht nested hn
  obtain ⟨root, hr, ht⟩ := List.mem_flatMap.1 ht
  exact List.mem_flatMap.2 ⟨root, hr, expansionOf_closed bounded ht hn⟩

theorem Between.after (bounded : facts.AliasBounded) {traversal : Traversal}
    (h : facts.Between mode traversal) (entries : List (String × Declaration)) :
    facts.Between mode (facts.after mode traversal entries) where
  tidy := h.tidy.noted fun type ht nested hn => .inl (typesBelow_closed bounded _ type ht nested hn)
  root := (noted_expanding _).trans h.root

theorem after_nil (traversal : Traversal) : facts.after mode traversal [] = traversal := by
  simp [TypeFacts.after, typesBelow, Extractor.kept_nil, noted]

theorem after_append (traversal : Traversal) (first second : List (String × Declaration)) :
    facts.after mode traversal (first ++ second) =
      facts.after mode (facts.after mode traversal first) second := by
  simp [TypeFacts.after, typesBelow_append, kept_append facts, noted_append]

theorem visitCandidate_eq (bounded : facts.AliasBounded) {traversal : Traversal}
    (h : facts.Between mode traversal) (path : String) (declaration : Declaration)
    (hclass : facts.classEntry? (path, declaration) = none) :
    facts.visitCandidate mode declaration traversal =
      facts.after mode traversal [(path, declaration)] := by
  have hcand : facts.candidate? (path, declaration) = facts.classify declaration := rfl
  unfold visitCandidate
  simp only [bind, pure]
  rcases hc : facts.classify declaration with _ | candidate
  · rw [hc] at hcand
    simp [TypeFacts.after, hcand, hclass, typesBelow, Extractor.kept_nil, noted]
  · rw [hc] at hcand
    rcases hp : candidate.props with _ | node
    · have htype : facts.propsType? candidate = none := by simp [propsType?, hp]
      simp [TypeFacts.after, hcand, hclass, typesBelow, component, htype, hp, Extractor.kept_nil,
        noted, Traversal.addComponent]
    · rcases ht : facts.typeOf node with _ | type
      · have htype : facts.propsType? candidate = none := by simp [propsType?, hp, ht, Id.run]
        simp [TypeFacts.after, hcand, hclass, typesBelow, component, htype, hp, ht,
          Extractor.kept_nil, noted, Traversal.addComponent]
      · have htype : facts.propsType? candidate = some type := by simp [propsType?, hp, ht, Id.run]
        simp [TypeFacts.after, hcand, hclass, typesBelow, component, htype, hp, ht,
          extractInto_eq bounded h.tidy h.root, Traversal.addComponent]

theorem visit_eq (bounded : facts.AliasBounded) {traversal : Traversal}
    (h : facts.Between mode traversal) (path : String) (declaration : Declaration) :
    facts.visit mode path traversal declaration =
      facts.after mode traversal [(path, declaration)] := by
  cases declaration with
  | classDecl declaration =>
    have hnone : facts.candidate? (path, .classDecl declaration) = none := rfl
    simp [visit, pure, Traversal.addClass, TypeFacts.after, classEntry?, hnone, typesBelow,
      Extractor.kept_nil, noted]
  | funDecl declaration => exact visitCandidate_eq bounded h path _ rfl
  | varDecl declaration => exact visitCandidate_eq bounded h path _ rfl
  | namespaceDecl name exported body => exact visitCandidate_eq bounded h path _ rfl

theorem foldlM_visit_eq (bounded : facts.AliasBounded) {traversal : Traversal}
    (h : facts.Between mode traversal) (path : String) (declarations : List Declaration) :
    declarations.foldlM (facts.visit mode path) traversal =
      facts.after mode traversal (declarations.map (path, ·)) := by
  induction declarations generalizing traversal with
  | nil => exact (after_nil traversal).symm
  | cons declaration rest ih =>
    have hsplit : (declaration :: rest).map (path, ·) =
        [(path, declaration)] ++ rest.map (path, ·) := rfl
    rw [List.foldlM_cons, visit_eq bounded h path declaration, hsplit, after_append]
    exact ih (h.after bounded _)

theorem foldlM_visitFile_eq (bounded : facts.AliasBounded) {traversal : Traversal}
    (h : facts.Between mode traversal) (files : List SourceFile) :
    files.foldlM (facts.visitFile mode) traversal = facts.after mode traversal
      (files.flatMap fun file => (file.declarations.flatMap Declaration.visited).map (file.path, ·)) := by
  induction files generalizing traversal with
  | nil => exact (after_nil traversal).symm
  | cons file rest ih =>
    rw [List.foldlM_cons, visitFile, foldlM_visit_eq bounded h, List.flatMap_cons, after_append]
    exact ih (h.after bounded _)

/-- The document of a program, without an extractor: its components, its classes, and the schemas
of the types met, in `dedupe` mode of each type once. -/
theorem document_eq (bounded : facts.AliasBounded) (mode : SchemaMode) :
    facts.document mode = ⟨(facts.documentedTypes mode).map facts.ownSchema,
      facts.candidates.map facts.component, facts.visited.filterMap facts.classEntry?⟩ := by
  have htypes : Extractor.fresh.kept mode facts.metTypes = facts.documentedTypes mode := by
    cases mode with
    | repeated => rfl
    | dedupe => exact firstMentions_nil _
  have hrun : facts.document mode = (facts.after mode Traversal.start facts.visited).document :=
    congrArg Traversal.document (foldlM_visitFile_eq bounded (.start facts mode) facts.files)
  rw [hrun, ← htypes]
  simp only [TypeFacts.after, Traversal.start, Documentation.empty, List.nil_append]
  rfl

/-! ## Modes, references and order -/

/-- Two components whose props lead into two mutually recursive types: `Tree` has a member of type
`Forest`, and `Forest` members of both. -/
def treeTable : FactTable where
  files := [⟨"tree.tsx", [
    .funDecl ⟨some "TreeView", none, true, ⟨⟨0⟩, [⟨"props", some ⟨⟨0⟩, .other⟩⟩], none⟩⟩,
    .funDecl ⟨some "ForestView", none, true, ⟨⟨0⟩, [⟨"props", some ⟨⟨1⟩, .other⟩⟩], none⟩⟩]⟩]
  types := #[
    ⟨some ⟨"__type", none⟩, some "Tree", none, [⟨0⟩, ⟨1⟩]⟩,
    ⟨some ⟨"__type", none⟩, some "Forest", none, [⟨2⟩, ⟨3⟩]⟩,
    ⟨some ⟨"Props", none⟩, none, none, [⟨2⟩]⟩,
    ⟨none, none, some "number", []⟩,
    ⟨some .jsxElement, none, none, []⟩]
  members := #[⟨"value", some ⟨3⟩, false⟩, ⟨"children", some ⟨1⟩, false⟩, ⟨"first", some ⟨0⟩, false⟩,
    ⟨"rest", some ⟨1⟩, true⟩]
  returns := #[some ⟨4⟩]
  nodes := #[some ⟨2⟩, some ⟨1⟩]
  classes := #[]

theorem metTypes_treeTable : treeTable.facts.metTypes = [⟨1⟩, ⟨0⟩, ⟨2⟩, ⟨0⟩, ⟨1⟩] := by decide

theorem mem_documentedTypes {type : TypeId} : type ∈ facts.documentedTypes mode ↔ type ∈ facts.metTypes := by
  cases mode with
  | repeated => rfl
  | dedupe => exact List.mem_eraseDups

/-- Both modes find the same components and classes. The schemas of `dedupe` mode are those of
`repeated` mode without the later mentions of a type. -/
theorem document_dedupe_eraseDups (bounded : facts.AliasBounded) :
    (facts.document .repeated).types = facts.metTypes.map facts.ownSchema ∧
    (facts.document .dedupe).types = facts.metTypes.eraseDups.map facts.ownSchema ∧
    (facts.document .dedupe).components = (facts.document .repeated).components ∧
    (facts.document .dedupe).classes = (facts.document .repeated).classes := by
  rw [document_eq bounded, document_eq bounded]
  exact ⟨rfl, rfl, rfl, rfl⟩

theorem document_dedupe_treeTable :
    treeTable.facts.AliasBounded ∧
    (treeTable.facts.document .repeated).types =
      [⟨1⟩, ⟨0⟩, ⟨2⟩, ⟨0⟩, ⟨1⟩].map treeTable.facts.ownSchema ∧
    (treeTable.facts.document .dedupe).types =
      [⟨1⟩, ⟨0⟩, ⟨2⟩].map treeTable.facts.ownSchema := by
  obtain ⟨hrepeated, hdedupe, -, -⟩ := document_dedupe_eraseDups treeTable.aliasBounded
  rw [metTypes_treeTable] at hrepeated hdedupe
  exact ⟨treeTable.aliasBounded, hrepeated, hdedupe⟩

/-- Every name that stands for a schema is the name of a schema in the document: that of the props
type of a component, and that of the type of a property. -/
theorem document_names_schemas (bounded : facts.AliasBounded) (mode : SchemaMode) :
    (facts.document mode).components = facts.candidates.map facts.component ∧
    (facts.document mode).types = (facts.documentedTypes mode).map facts.ownSchema ∧
    (∀ candidate ∈ facts.candidates, ∀ type, facts.propsType? candidate = some type →
      (facts.component candidate).propsSchemaName = some (facts.schemaName type).run ∧
      facts.ownSchema type ∈ (facts.document mode).types) ∧
    ∀ type ∈ facts.documentedTypes mode, ∀ member ∈ (facts.members type).run, ∀ nested name,
      (facts.memberType member).run = some nested → (facts.aliasName nested).run = some name →
      (facts.ownProperty member).complexType = some name ∧
      facts.ownProperty member ∈ (facts.ownSchema type).properties ∧
      facts.ownSchema nested ∈ (facts.document mode).types := by
  have hmem : ∀ type ∈ facts.metTypes, facts.ownSchema type ∈ (facts.document mode).types := by
    intro type ht
    rw [document_eq bounded]
    exact List.mem_map_of_mem (mem_documentedTypes.2 ht)
  refine ⟨by rw [document_eq bounded], by rw [document_eq bounded], ?_, ?_⟩
  · intro candidate hc type ht
    refine ⟨by simp [component, ht], hmem type ?_⟩
    refine List.mem_flatMap.2 ⟨type, List.mem_filterMap.2 ⟨candidate, hc, ht⟩, ?_⟩
    exact mem_expansionOf_self type
  · intro type ht member hm nested name htype hname
    have halias : facts.IsAliased nested := by simp [IsAliased, hname]
    refine ⟨by simp [ownProperty, htype, hname], List.mem_map_of_mem hm, hmem nested ?_⟩
    exact typesBelow_closed bounded _ type (mem_documentedTypes.1 ht) nested
      (facts.mem_nestedTypes.2 ⟨halias, member, hm, htype⟩)

/-- `TreeView` refers to `Props`, and `Props` to `Tree`, whose expansion `ForestView` began. -/
theorem document_names_schemas_treeTable :
    treeTable.facts.AliasBounded ∧
    (treeTable.facts.component ⟨"TreeView", some ⟨⟨0⟩, .other⟩⟩).propsSchemaName = some "Props" ∧
    treeTable.facts.ownSchema ⟨2⟩ ∈ (treeTable.facts.document .dedupe).types ∧
    (treeTable.facts.ownProperty ⟨2⟩).complexType = some "Tree" ∧
    treeTable.facts.ownSchema ⟨0⟩ ∈ (treeTable.facts.document .dedupe).types := by
  obtain ⟨-, -, hprops, hmember⟩ := document_names_schemas treeTable.aliasBounded .dedupe
  obtain ⟨hname, hschema⟩ := hprops ⟨"TreeView", some ⟨⟨0⟩, .other⟩⟩
    (List.mem_filterMap.2 ⟨treeTable.facts.visited[0], List.getElem_mem _, rfl⟩) ⟨2⟩ rfl
  have hlisted : (⟨2⟩ : TypeId) ∈ treeTable.facts.documentedTypes .dedupe :=
    mem_documentedTypes.2 (by rw [metTypes_treeTable]; decide)
  obtain ⟨hcomplex, -, hnested⟩ := hmember ⟨2⟩ hlisted ⟨2⟩ (by decide) ⟨0⟩ "Tree" rfl rfl
  exact ⟨treeTable.aliasBounded, hname, hschema, hcomplex, hnested⟩

theorem settled_metTypes (bounded : facts.AliasBounded) : facts.Settled [] facts.metTypes :=
  settled_flatMap fun type _ before => settled_expansionOf bounded type before

theorem settled_documentedTypes (bounded : facts.AliasBounded) (mode : SchemaMode) :
    facts.Settled [] (facts.documentedTypes mode) := by
  cases mode with
  | repeated => exact settled_metTypes bounded
  | dedupe =>
    have h := settled_firstMentions (List.nil_subset []) (settled_metTypes bounded)
    rwa [firstMentions_nil] at h

/-- A schema comes after those it refers to, unless the type that is referred to leads back to the
schema's own. -/
theorem document_nested_first (bounded : facts.AliasBounded) (mode : SchemaMode) (i : Nat)
    (type : TypeId) (hi : (facts.documentedTypes mode)[i]? = some type) (member : MemberId)
    (hm : member ∈ (facts.members type).run) (nested : TypeId)
    (htype : (facts.memberType member).run = some nested) (halias : facts.IsAliased nested)
    (hback : ¬ facts.Leads nested type) :
    (facts.document mode).types[i]? = some (facts.ownSchema type) ∧
    ∃ j < i, (facts.documentedTypes mode)[j]? = some nested ∧
      (facts.document mode).types[j]? = some (facts.ownSchema nested) := by
  have hn : nested ∈ facts.nestedTypes type := facts.mem_nestedTypes.2 ⟨halias, member, hm, htype⟩
  rw [document_eq bounded]
  simp only [List.getElem?_map]
  refine ⟨by rw [hi]; rfl, ?_⟩
  rcases settled_getElem (settled_documentedTypes bounded mode) hi hn with hx | ⟨j, hj, hget⟩ | hx
  · cases hx
  · exact ⟨j, hj, hget, by rw [hget]; rfl⟩
  · exact absurd hx hback

/-- `Tree` and `Forest` lead to each other only. -/
theorem not_leads_treeTable : ¬ treeTable.facts.Leads ⟨0⟩ ⟨2⟩ := by
  have hstay : ∀ type, treeTable.facts.Leads ⟨0⟩ type → type = ⟨0⟩ ∨ type = ⟨1⟩ := by
    intro type h
    induction h with
    | refl => exact .inl rfl
    | tail _ hstep ih =>
      have htree : treeTable.facts.nestedTypes ⟨0⟩ = [⟨1⟩] := by decide
      have hforest : treeTable.facts.nestedTypes ⟨1⟩ = [⟨0⟩, ⟨1⟩] := by decide
      rcases ih with rfl | rfl
      · rw [htree] at hstep
        simpa using Or.inr (List.mem_singleton.1 hstep)
      · rw [hforest] at hstep
        simpa using hstep
  intro h
  rcases hstay ⟨2⟩ h with h | h <;> cases h

theorem document_nested_first_treeTable :
    treeTable.facts.AliasBounded ∧ (treeTable.facts.documentedTypes .dedupe)[2]? = some ⟨2⟩ ∧
    ¬ treeTable.facts.Leads ⟨0⟩ ⟨2⟩ ∧
    (treeTable.facts.document .dedupe).types[2]? = some (treeTable.facts.ownSchema ⟨2⟩) ∧
    ∃ j < 2, (treeTable.facts.documentedTypes .dedupe)[j]? = some ⟨0⟩ ∧
      (treeTable.facts.document .dedupe).types[j]? = some (treeTable.facts.ownSchema ⟨0⟩) := by
  have hlisted : (treeTable.facts.documentedTypes .dedupe)[2]? = some ⟨2⟩ := by decide
  obtain ⟨hschema, hfirst⟩ := document_nested_first treeTable.aliasBounded .dedupe 2 ⟨2⟩ hlisted
    ⟨2⟩ (by decide) ⟨0⟩ rfl (by decide) not_leads_treeTable
  exact ⟨treeTable.aliasBounded, hlisted, not_leads_treeTable, hschema, hfirst⟩

end TypeFacts

end ComponentSchema
