import ComponentSchema.Proofs.Traversal.DocumentContents

/-!
# What is visited

The functions, variables and classes of a file are the leaves of its declarations. On the way from
the file to a leaf there may be namespaces, one in the other; the leaf is open if each of them but
the outermost carries an `export` modifier, and so does the leaf itself if it is in a namespace. A
leaf in a namespace that carries none is closed, whatever modifiers there are further in.

What documents hold is stated here over the open leaves of the files, each taken for itself: no
extractor goes from one to the next.

Results.
* `visited_eq_open`: the visited declarations are the open leaves.
* `document_visits`: what a document holds, and that documents of more files are put together from
  those of fewer.
-/
namespace ComponentSchema

/-! ## Leaves -/

mutual

/-- The functions, variables and classes of a declaration in source order. With each stand the
`export` modifiers of the declarations on the way to it, `way` being those on the way so far. -/
def Declaration.leaves (way : List Bool) : Declaration → List (List Bool × Declaration)
  | .namespaceDecl _ _ body => Declaration.leavesIn way body
  | declaration => [(way, declaration)]

/-- The leaves of the body of a namespace. -/
def Declaration.leavesIn (way : List Bool) : List Declaration → List (List Bool × Declaration)
  | [] => []
  | declaration :: rest =>
    declaration.leaves (way ++ [declaration.exported]) ++ Declaration.leavesIn way rest

end

/-- The leaf, if each declaration on the way to it carries an `export` modifier. -/
def openLeaf? (leaf : List Bool × Declaration) : Option Declaration :=
  if leaf.1.all id then some leaf.2 else none

/-- The open leaves of a file. What stands in the file itself needs no modifier. -/
def SourceFile.openLeaves (file : SourceFile) : List Declaration :=
  (file.declarations.flatMap (Declaration.leaves [])).filterMap openLeaf?

mutual

/-- Behind a declaration without modifier nothing is open. -/
theorem openLeaves_of_closed : ∀ (declaration : Declaration) (way : List Bool), way.all id = false →
    (declaration.leaves way).filterMap openLeaf? = []
  | .namespaceDecl _ _ body, way, h => openLeavesIn_of_closed body way h
  | .funDecl _, way, h | .varDecl _, way, h | .classDecl _, way, h => by
    simp [Declaration.leaves, openLeaf?, h]

theorem openLeavesIn_of_closed : ∀ (body : List Declaration) (way : List Bool), way.all id = false →
    (Declaration.leavesIn way body).filterMap openLeaf? = []
  | [], _, _ => rfl
  | declaration :: rest, way, h => by
    have hway : (way ++ [declaration.exported]).all id = false := by simp [List.all_append, h]
    rw [Declaration.leavesIn, List.filterMap_append, openLeaves_of_closed declaration _ hway,
      openLeavesIn_of_closed rest way h]
    rfl

end

mutual

theorem openLeaves_of_open : ∀ (declaration : Declaration) (way : List Bool), way.all id = true →
    (declaration.leaves way).filterMap openLeaf? = declaration.visited
  | .namespaceDecl _ _ body, way, h => openLeavesIn_of_open body way h
  | .funDecl _, way, h | .varDecl _, way, h | .classDecl _, way, h => by
    simp [Declaration.leaves, Declaration.visited, openLeaf?, h]

theorem openLeavesIn_of_open : ∀ (body : List Declaration) (way : List Bool), way.all id = true →
    (Declaration.leavesIn way body).filterMap openLeaf? = Declaration.visitedIn body
  | [], _, _ => rfl
  | declaration :: rest, way, h => by
    have hway : (way ++ [declaration.exported]).all id = declaration.exported := by
      simp [List.all_append, h]
    rw [Declaration.leavesIn, List.filterMap_append, Declaration.visitedIn,
      openLeavesIn_of_open rest way h]
    congr 1
    split
    · rename_i hexported
      exact openLeaves_of_open declaration _ (hway.trans hexported)
    · rename_i hexported
      exact openLeaves_of_closed declaration _ (hway.trans (Bool.eq_false_iff.2 hexported))

end

theorem SourceFile.openLeaves_eq (file : SourceFile) :
    file.openLeaves = file.declarations.flatMap Declaration.visited := by
  rw [openLeaves, List.filterMap_flatMap]
  congr 1
  funext declaration
  exact openLeaves_of_open declaration [] rfl

/-! ## Documents -/

/-- Two documents, one after the other. -/
def Documentation.append (first second : Documentation) : Documentation :=
  ⟨first.types ++ second.types, first.components ++ second.components,
    first.classes ++ second.classes⟩

namespace TypeFacts

variable (facts : TypeFacts Id)

/-- The open leaves of the files of a program, in order, with the paths of the files. -/
def openLeaves : List (String × Declaration) :=
  facts.files.flatMap fun file => file.openLeaves.map (file.path, ·)

/-- The same answers about other files. -/
def withFiles (files : List SourceFile) : TypeFacts Id := { facts with files }

/-- The schemas that a fresh extractor appends for the props of a component, if these resolve. -/
def ownTypes (candidate : Candidate) : List Schema :=
  match facts.propsType? candidate with
  | none => []
  | some type => (facts.extractInto .repeated type Extractor.fresh).run.added

variable {facts}

theorem visited_eq_open : facts.visited = facts.openLeaves := by
  simp only [visited, openLeaves, SourceFile.openLeaves_eq]

theorem ownTypes_eq (bounded : facts.AliasBounded) (candidate : Candidate) :
    facts.ownTypes candidate = (facts.typesBelow [candidate]).map facts.ownSchema := by
  rcases htype : facts.propsType? candidate with _ | type
  · simp [ownTypes, typesBelow, htype]
  · have hrun : facts.extractInto .repeated type Extractor.fresh = _ :=
      extractInto_eq bounded (Tidy.fresh facts .repeated) rfl
    simp [ownTypes, typesBelow, htype, hrun, Extractor.kept, Id.run]

theorem metTypes_eq_ownTypes (bounded : facts.AliasBounded) :
    facts.metTypes.map facts.ownSchema = facts.candidates.flatMap facts.ownTypes := by
  rw [metTypes]
  induction facts.candidates with
  | nil => rfl
  | cons candidate rest ih =>
    have hsplit : candidate :: rest = [candidate] ++ rest := rfl
    rw [hsplit, typesBelow_append, List.map_append, ih, ← ownTypes_eq bounded]
    rfl

theorem expansion_withFiles (files : List SourceFile) (depth : Nat) (path : List TypeId)
    (type : TypeId) : (facts.withFiles files).expansion depth path type =
      facts.expansion depth path type := by
  induction depth generalizing path type with
  | zero => rfl
  | succ depth ih =>
    have hbelow : (facts.withFiles files).expansion depth (type :: path) =
        facts.expansion depth (type :: path) := funext fun nested => ih (type :: path) nested
    rw [expansion, expansion, hbelow]
    rfl

/-- The types met below components do not depend on the files. -/
theorem typesBelow_withFiles (files : List SourceFile) :
    (facts.withFiles files).typesBelow = facts.typesBelow := by
  have hexpansion : (facts.withFiles files).expansionOf = facts.expansionOf := by
    funext type
    have hbelow : (facts.withFiles files).expansion (facts.withFiles files).aliasBound [type] =
        facts.expansion facts.aliasBound [type] := funext (expansion_withFiles files _ _)
    rw [expansionOf, expansionOf, hbelow]
    rfl
  funext candidates
  rw [typesBelow, typesBelow, hexpansion]
  rfl

/-- Files that are documented one after the other are documented each for itself. -/
theorem document_withFiles_append (bounded : facts.AliasBounded) (first second : List SourceFile) :
    (facts.withFiles (first ++ second)).document .repeated =
      ((facts.withFiles first).document .repeated).append
        ((facts.withFiles second).document .repeated) := by
  have hbounded : ∀ files, (facts.withFiles files).AliasBounded := fun _ => bounded
  have hvisited : (facts.withFiles (first ++ second)).visited =
      (facts.withFiles first).visited ++ (facts.withFiles second).visited := List.flatMap_append
  have hcandidates : (facts.withFiles (first ++ second)).candidates =
      (facts.withFiles first).candidates ++ (facts.withFiles second).candidates := by
    simp only [candidates, hvisited, List.filterMap_append]
    rfl
  rw [document_eq (hbounded _), document_eq (hbounded _), document_eq (hbounded _),
    Documentation.append]
  simp only [documentedTypes, metTypes, typesBelow_withFiles, hcandidates, hvisited,
    typesBelow_append, List.map_append, List.filterMap_append]
  rfl

/-- The components of a document are the open leaves that classify as components, its classes are
the open leaves that are classes, and in `repeated` mode its schemas are those that each component
needs for itself. So in that mode the document of some files and more files is the document of
those, and then that of these. -/
theorem document_visits (bounded : facts.AliasBounded) (mode : SchemaMode) :
    (facts.document mode).components =
      (facts.openLeaves.filterMap facts.candidate?).map facts.component ∧
    (facts.document mode).classes = facts.openLeaves.filterMap facts.classEntry? ∧
    (facts.document .repeated).types =
      (facts.openLeaves.filterMap facts.candidate?).flatMap facts.ownTypes ∧
    ∀ first second : List SourceFile, (facts.withFiles (first ++ second)).document .repeated =
      ((facts.withFiles first).document .repeated).append
        ((facts.withFiles second).document .repeated) := by
  rw [← visited_eq_open, document_eq bounded, document_eq bounded]
  exact ⟨rfl, rfl, metTypes_eq_ownTypes bounded, document_withFiles_append bounded⟩

/-- `TreeView` stands in the file, `ForestView` in a namespace of it with a modifier, and once more
in a namespace in that one that has none. -/
def nestedTable : FactTable :=
  let view : Declaration :=
    .funDecl ⟨some "ForestView", none, true, ⟨⟨0⟩, [⟨"props", some ⟨⟨1⟩, .other⟩⟩], none⟩⟩
  { treeTable with files := [⟨"tree.tsx", [
      .funDecl ⟨some "TreeView", none, false, ⟨⟨0⟩, [⟨"props", some ⟨⟨0⟩, .other⟩⟩], none⟩⟩,
      .namespaceDecl "Views" false [.namespaceDecl "Inner" false [view], view]]⟩] }

/-- Of the three declarations two are open, and the schemas of each begin with `Forest`. -/
theorem document_visits_nestedTable :
    nestedTable.facts.AliasBounded ∧
    (nestedTable.facts.document .dedupe).components =
      [⟨"TreeView", some "Props"⟩, ⟨"ForestView", some "Forest"⟩] ∧
    (nestedTable.facts.document .repeated).types =
      [⟨1⟩, ⟨0⟩, ⟨2⟩, ⟨0⟩, ⟨1⟩].map nestedTable.facts.ownSchema ∧
    (nestedTable.facts.withFiles (nestedTable.files ++ nestedTable.files)).document .repeated =
      (nestedTable.facts.document .repeated).append (nestedTable.facts.document .repeated) := by
  obtain ⟨hcomponents, -, htypes, happend⟩ := document_visits nestedTable.aliasBounded .dedupe
  refine ⟨nestedTable.aliasBounded, hcomponents.trans (by decide), ?_, ?_⟩
  · rw [htypes]
    decide
  · exact happend nestedTable.files nestedTable.files

end TypeFacts

end ComponentSchema
