import ComponentSchema.Facts
import ComponentSchema.Record

/-!
# Schema extraction

A type is reduced to a flat list of properties. A member whose type has an alias name refers to that
type's own schema, which is appended before the schema that refers to it.

An expansion path holds pairwise different types with alias names, so it never gets longer than the
number of such types; `TypeFacts.aliasBound` steps of descent are therefore all that is ever needed.

The definitions model the schema extractor, and their docstrings name the operations of it that they
mirror.
-/
namespace ComponentSchema

/-- How often the schema of one type is written. Mirrors `SchemaMode`. -/
inductive SchemaMode where
  /-- Every time the type is met. -/
  | repeated
  /-- At most once. -/
  | dedupe
  deriving DecidableEq, Repr, Inhabited

/-- What an extraction remembers from type to type. Mirrors `SchemaExtractor`. -/
structure Extractor where
  /-- The types on the current expansion path, innermost first. -/
  expanding : List TypeId
  /-- The types already appended, with the names of their schemas; kept in `dedupe` mode only. -/
  emitted : List (TypeId × String)
  deriving Repr, Inhabited

namespace Extractor

/-- Nothing met yet. -/
def fresh : Extractor := ⟨[], []⟩

/-- `type` is being expanded from here on. -/
def enter (extractor : Extractor) (type : TypeId) : Extractor :=
  { extractor with expanding := type :: extractor.expanding }

/-- `type` is no longer being expanded. -/
def leave (extractor : Extractor) (type : TypeId) : Extractor :=
  { extractor with expanding := extractor.expanding.erase type }

/-- The name under which the schema of `type` was appended. -/
def emittedName? (extractor : Extractor) (type : TypeId) : Option String :=
  extractor.emitted.lookup type

/-- The schema of `type` has been appended under `name`. Mirrors the bookkeeping of `append`. -/
def record (extractor : Extractor) (mode : SchemaMode) (type : TypeId) (name : String) : Extractor :=
  match mode with
  | .repeated => extractor
  | .dedupe => { extractor with emitted := (type, name) :: extractor.emitted }

end Extractor

/-- What one step of an extraction yields: an answer, the schemas appended on the way in order, and
the extractor afterwards. -/
structure Extracted (α : Type) where
  answer : α
  added : List Schema
  extractor : Extractor

namespace TypeFacts

variable {m : Type → Type} [Monad m]

/-- The name of a type's schema: its alias name, else its symbol's name. Mirrors `schema_name`. -/
def schemaName (facts : TypeFacts m) (type : TypeId) : m String := do
  match ← facts.aliasName type with
  | some name => pure name
  | none =>
    match ← facts.symbol type with
    | some symbol => pure symbol.name
    | none => pure anonymousTypeName

/-- The property that a member becomes. A member type with an alias name is handed to `expand`,
which appends its schema if that is due. Mirrors `property`. -/
def property (facts : TypeFacts m) (expand : TypeId → Extractor → m (Extracted Unit))
    (member : MemberId) (extractor : Extractor) : m (Extracted Property) := do
  let name ← facts.memberName member
  let optional ← facts.memberOptional member
  match ← facts.memberType member with
  | none => pure ⟨⟨name, none, none, optional⟩, [], extractor⟩
  | some type =>
    let intrinsicType ← facts.intrinsicName type
    match ← facts.aliasName type with
    | none => pure ⟨⟨name, intrinsicType, none, optional⟩, [], extractor⟩
    | some complexType =>
      let nested ← expand type extractor
      pure ⟨⟨name, intrinsicType, some complexType, optional⟩, nested.added, nested.extractor⟩

/-- The properties of a list of members, in order. -/
def properties (facts : TypeFacts m) (expand : TypeId → Extractor → m (Extracted Unit)) :
    List MemberId → Extractor → m (Extracted (List Property))
  | [], extractor => pure ⟨[], [], extractor⟩
  | member :: rest, extractor => do
    let first ← facts.property expand member extractor
    let others ← facts.properties expand rest first.extractor
    pure ⟨first.answer :: others.answer, first.added ++ others.added, others.extractor⟩

/-- The schema of a type, which is on the expansion path while its members are looked at. -/
def schemaOf (facts : TypeFacts m) (expand : TypeId → Extractor → m (Extracted Unit))
    (type : TypeId) (extractor : Extractor) : m (Extracted Schema) := do
  let name ← facts.schemaName type
  let members ← facts.members type
  let found ← facts.properties expand members (extractor.enter type)
  pure ⟨⟨name, found.answer⟩, found.added, found.extractor.leave type⟩

/-- Appends the schema of a member's type, unless the type is on the expansion path or was appended
before. The first argument bounds the descent. Mirrors `expand_nested`. -/
def expand (facts : TypeFacts m) (mode : SchemaMode) :
    Nat → TypeId → Extractor → m (Extracted Unit)
  | 0, _, extractor => pure ⟨(), [], extractor⟩
  | depth + 1, type, extractor =>
    if type ∈ extractor.expanding || (extractor.emittedName? type).isSome then
      pure ⟨(), [], extractor⟩
    else do
      let found ← facts.schemaOf (facts.expand mode depth) type extractor
      pure ⟨(), found.added ++ [found.answer], found.extractor.record mode type found.answer.name⟩

/-- The schema of `type`. Schemas of nested types are appended; the schema itself is not. Mirrors
`extract`. -/
def extract (facts : TypeFacts m) (mode : SchemaMode) (type : TypeId) (extractor : Extractor) :
    m (Extracted Schema) :=
  facts.schemaOf (facts.expand mode facts.aliasBound) type extractor

/-- Appends the schema of `type` after those of its nested types, unless it was appended before; the
answer is the name of that schema. Mirrors `extract_into`. -/
def extractInto (facts : TypeFacts m) (mode : SchemaMode) (type : TypeId) (extractor : Extractor) :
    m (Extracted String) := do
  match extractor.emittedName? type with
  | some name => pure ⟨name, [], extractor⟩
  | none =>
    let found ← facts.extract mode type extractor
    pure ⟨found.answer.name, found.added ++ [found.answer],
      found.extractor.record mode type found.answer.name⟩

end TypeFacts

end ComponentSchema
