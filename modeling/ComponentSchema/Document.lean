import ComponentSchema.Classify
import ComponentSchema.Extract

/-!
# Documenting a program

Files are visited in order and declarations in source order. The declarations of a namespace are
visited where the namespace stands, those only that carry an `export` modifier.

The definitions model the traversal, and their docstrings name the operations of it that they mirror.
-/
namespace ComponentSchema

/-- The entry of a documented symbol. Mirrors `serialize_symbol`. -/
def SymbolDoc.entry (doc : SymbolDoc) : DocEntry :=
  { DocEntry.blank with
    name := some doc.name, documentation := some doc.documentation, typeText := some doc.typeText }

/-- The entry of a documented construct signature. Mirrors `serialize_signature`. -/
def SignatureDoc.entry (doc : SignatureDoc) : DocEntry :=
  { DocEntry.blank with
    parameters := some (doc.parameters.map SymbolDoc.entry)
    returnType := some doc.returnType
    documentation := some doc.documentation }

/-- What a traversal has found, and the extractor it goes on with. Mirrors `Walker`. -/
structure Traversal where
  document : Documentation
  extractor : Extractor

namespace Traversal

/-- Nothing visited yet. -/
def start : Traversal := ⟨Documentation.empty, Extractor.fresh⟩

/-- A component was found, and schemas were appended for it. -/
def addComponent (traversal : Traversal) (component : Component) (added : List Schema)
    (extractor : Extractor) : Traversal :=
  { document := { traversal.document with
      types := traversal.document.types ++ added
      components := traversal.document.components ++ [component] }
    extractor }

/-- A class was found. -/
def addClass (traversal : Traversal) (entry : DocEntry) : Traversal :=
  { traversal with
    document := { traversal.document with classes := traversal.document.classes ++ [entry] } }

end Traversal

mutual

/-- The functions, variables and classes that a declaration stands for: itself, or those that carry
an `export` modifier in the body of a namespace. -/
def Declaration.visited : Declaration → List Declaration
  | .namespaceDecl _ _ body => Declaration.visitedIn body
  | declaration => [declaration]

/-- The visited declarations of a namespace body. -/
def Declaration.visitedIn : List Declaration → List Declaration
  | [] => []
  | declaration :: rest =>
    (if declaration.exported then declaration.visited else []) ++ Declaration.visitedIn rest

end

namespace TypeFacts

variable {m : Type → Type} [Monad m]

/-- The entry of a class: its symbol, its file and its construct signatures. Mirrors
`serialize_class`. -/
def classEntry (facts : TypeFacts m) (path : String) (declaration : ClassDeclaration) : DocEntry :=
  let entry :=
    match facts.classSymbol declaration with
    | some doc => doc.entry
    | none => { DocEntry.blank with name := declaration.name }
  { entry with
    fileName := some path
    constructors := some ((facts.constructSignatures declaration).map SignatureDoc.entry) }

/-- Documents a declaration if it is a component, and appends the schemas that its props need.
Mirrors `visit_candidate`. -/
def visitCandidate (facts : TypeFacts m) (mode : SchemaMode) (declaration : Declaration)
    (traversal : Traversal) : m Traversal := do
  match ← facts.classify declaration with
  | none => pure traversal
  | some candidate =>
    let props ←
      match candidate.props with
      | none => pure none
      | some node => facts.typeOf node
    match props with
    | none => pure (traversal.addComponent ⟨candidate.name, none⟩ [] traversal.extractor)
    | some type =>
      let found ← facts.extractInto mode type traversal.extractor
      pure (traversal.addComponent ⟨candidate.name, some found.answer⟩ found.added found.extractor)

/-- Documents one visited declaration of the file at `path`. Mirrors `visit`. -/
def visit (facts : TypeFacts m) (mode : SchemaMode) (path : String) (traversal : Traversal) :
    Declaration → m Traversal
  | .classDecl declaration => pure (traversal.addClass (facts.classEntry path declaration))
  | declaration => facts.visitCandidate mode declaration traversal

/-- Documents every visited declaration of a file. -/
def visitFile (facts : TypeFacts m) (mode : SchemaMode) (traversal : Traversal) (file : SourceFile) :
    m Traversal :=
  (file.declarations.flatMap Declaration.visited).foldlM (facts.visit mode file.path) traversal

/-- The document of every file of a program. Mirrors `document_program`. -/
def document (facts : TypeFacts m) (mode : SchemaMode) : m Documentation := do
  let traversal ← facts.files.foldlM (facts.visitFile mode) Traversal.start
  pure traversal.document

end TypeFacts

end ComponentSchema
