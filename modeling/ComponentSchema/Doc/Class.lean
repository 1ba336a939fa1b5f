import ComponentSchema.Doc.Comment
import ComponentSchema.Facts
import ComponentSchema.Syntax.Tree

/-!
# Documented classes

The symbol and the construct signatures of a class, as its doc comments and its syntax give them.

The definitions model how the binder documents classes, and their docstrings name the operations
that they mirror.
-/
namespace ComponentSchema

open Syntax

/-- The type text of a parameter: its annotation as written, else the type of a literal default
value. Mirrors `type_text`. -/
def Syntax.Parameter.typeText (parameter : Parameter) : String :=
  match parameter.written, parameter.value with
  | some written, _ => written.text
  | none, some (.string _) | none, some (.template _) => "string"
  | none, some (.number _) => "number"
  | none, some .boolean => "boolean"
  | none, _ => "any"

/-- The name that stands for a parameter without one, by its place. -/
def positionalName (index : Nat) : String := "__" ++ toString index

/-- The name of a parameter in its place. Mirrors `pat_parts`. -/
def Syntax.Parameter.nameAt (parameter : Parameter) (index : Nat) : String :=
  parameter.name.getD (positionalName index)

/-- The documentation of a parameter in its place. -/
def Syntax.Parameter.symbolDoc (doc : DocComment) (parameter : Parameter) (index : Nat) : SymbolDoc :=
  let name := parameter.nameAt index
  ⟨name, doc.parameter name, parameter.typeText⟩

/-- The documentation of a constructor of the class named `name`. Mirrors `constructor_signature`. -/
def constructorDoc (name : String) (leading : List Comment) (definition : Function) : SignatureDoc :=
  let doc := DocComment.ofComments leading
  ⟨definition.parameters.mapIdx fun index parameter => parameter.symbolDoc doc index, name,
    doc.description⟩

/-- The constructors of a class that are signatures: those without a body, if there are any. -/
def signatureConstructors (members : List ClassMember) : List (List Comment × Function) :=
  let constructors := members.filterMap fun member =>
    match member with
    | .constructor leading definition => some (leading, definition)
    | _ => none
  let overloads := constructors.filter fun (_, definition) => definition.body.isNone
  if overloads.isEmpty then constructors else overloads

/-- The construct signatures of the class named `name`; one without parameters if none is
declared. Mirrors the constructors of `class_facts`. -/
def constructSignatures (name : String) (members : List ClassMember) : List SignatureDoc :=
  match signatureConstructors members with
  | [] => [⟨[], name, ""⟩]
  | declared => declared.map fun (leading, definition) => constructorDoc name leading definition

/-- The documented symbol of the class named `name`, given the comments before it. Mirrors the
symbol of `class_facts`. -/
def classSymbol (name : String) (leading : List Comment) : SymbolDoc :=
  ⟨name, (DocComment.ofComments leading).description, "typeof " ++ name⟩

end ComponentSchema
