import ComponentSchema.Document
import ComponentSchema.Program.Binding
import ComponentSchema.Program.Returns

/-!
# Programs

A program is what its files declare, bound together. It answers the type facts that documentation is
made from, and resolves types when they are first asked for.

The definitions model the program that loader, binder and checker are parts of, and how documents
are generated from it.
-/
namespace ComponentSchema

structure Program where
  /-- The declaration view of the files, in program order. -/
  files : List SourceFile
  index : Index

namespace Program

/-- Loads the roots and everything they import. Mirrors the program's `load`. -/
def load (tree : FileTree) (roots : List Path) : Except LoadError Program := do
  let modules ← Modules.load tree roots
  let (files, index) := modules.bind
  pure ⟨files, index⟩

/-- Whether a declaration is a type alias. -/
def isAlias (decl : TypeDecl) : Bool :=
  match decl.kind with
  | .typeAlias _ => true
  | _ => false

/-- The answers of a program. A type with an alias name comes from the one resolution of an alias
declaration, so there are no more of them than alias declarations. Mirrors the program's answers to
the `TypeFacts` queries. -/
def facts (program : Program) : TypeFacts Resolve where
  files := program.files
  returnType signature :=
    match signature.returnType with
    | some node => Resolve.typeOfNode program.index node.id
    | none => Resolve.returnTypeOf program.index signature.id
  typeOf node := Resolve.typeOfNode program.index node.id
  symbol type := return ((← get).typeData type).symbol
  aliasName type := return ((← get).typeData type).aliasName
  intrinsicName type := return ((← get).typeData type).intrinsic.map (·.text)
  members type := return ((← get).typeData type).members
  memberName member := return ((← get).memberData member).name
  memberType member := Resolve.memberType program.index member
  memberOptional member := return ((← get).memberData member).optional
  classSymbol declaration := (program.index.classSites[declaration.id.index]?).map (·.symbol)
  constructSignatures declaration :=
    ((program.index.classSites[declaration.id.index]?).map (·.constructors)).getD []
  aliasBound := program.index.decls.countP isAlias

/-- The document of a program. -/
def document (program : Program) (mode : SchemaMode) : Documentation :=
  ((program.facts.document mode).run Arena.empty).1

end Program

/-- Loads the roots and documents everything that was loaded. Mirrors `generate_documentation_with`. -/
def documentFiles (tree : FileTree) (roots : List Path) (mode : SchemaMode) :
    Except LoadError Documentation :=
  (Program.load tree roots).map (·.document mode)

end ComponentSchema
