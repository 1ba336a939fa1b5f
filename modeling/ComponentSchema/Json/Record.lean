import ComponentSchema.Json.Reader

/-!
# Reading records

Readers of values with a fixed shape: texts, flags, lists, names out of a fixed set, and records.

A record is an object of its fields in any order, or an array of its fields in their own order. Keys
that name no field are passed over; a field may not be there twice. A name out of a set is a text,
or an object whose only key is the name, with the value `null`.
-/
namespace ComponentSchema.Json

namespace Reader

variable {α : Type}

/-- `null`. -/
def null : Reader Unit := do
  match ← next? with
  | none => throw .unfinished
  | some 'n' => word "null"
  | some _ => misfit

/-- `true` or `false`. -/
def flag : Reader Bool := do
  match ← next? with
  | none => throw .unfinished
  | some 't' => word "true"; pure true
  | some 'f' => word "false"; pure false
  | some _ => misfit

/-- A text. -/
def text : Reader String := do
  match ← next? with
  | none => throw .unfinished
  | some '\x22' => string
  | some _ => misfit

/-- A value or `null`. -/
def nullable (reader : Reader α) : Reader (Option α) := do
  if (← next?) == some 'n' then word "null"; pure none else some <$> reader

/-- An array of values of one kind. -/
def list (item : Reader α) : Reader (List α) := do
  match ← next? with
  | none => throw .unfinished
  | some '[' =>
    advance
    between ']' (fun found => return found ++ [← item]) []
  | some _ => misfit

/-- An array or object where no bracket may open, because too many are open already. -/
def tooDeep : Reader α := do
  match ← next? with
  | none => throw .unfinished
  | some '[' | some '\x7b' => throw .grammar
  | some _ => misfit

/-- A name out of a set. -/
def name (named : String → Option α) : Reader α := do
  match named (← text) with
  | some value => pure value
  | none => throw .shape

/-- A choice by name. -/
def choice (named : String → Option α) : Reader α := do
  match ← next? with
  | none => throw .unfinished
  | some '\x22' => name named
  | some '\x7b' =>
    advance
    let value ← name named
    expect ':'
    null
    expect '\x7d'
    pure value
  | some _ => throw .grammar

end Reader

/-! ## Records -/

/-- A field of a record `ρ`. -/
structure RecordField (ρ : Type) where
  key : String
  /-- Another key that means the field. -/
  otherKey : Option String
  /-- Reads the value of the field, to be put into a record. -/
  fill : Reader (ρ → ρ)
  /-- What is put into a record written as an object without the field, if that may be. -/
  missing : Option (ρ → ρ)
  /-- What is put into a record written as an array that ends before the field, if that may be. -/
  cutOff : Option (ρ → ρ)

namespace RecordField

variable {ρ α : Type}

/-- A field that has to be there. -/
def required (key : String) (reader : Reader α) (put : α → ρ → ρ) : RecordField ρ :=
  ⟨key, none, put <$> reader, none, none⟩

/-- A field that may be `null`, which is also what it is in an object without it. -/
def optional (key : String) (reader : Reader α) (put : Option α → ρ → ρ) : RecordField ρ :=
  ⟨key, none, put <$> reader.nullable, some (put none), none⟩

/-- A field that has a value where it is not written. -/
def standard (key : String) (reader : Reader α) (value : α) (put : α → ρ → ρ) : RecordField ρ :=
  ⟨key, none, put <$> reader, some (put value), some (put value)⟩

/-- The field under one more key. -/
def orKey (field : RecordField ρ) (key : String) : RecordField ρ := { field with otherKey := some key }

/-- Whether a key means the field. -/
def hasKey (field : RecordField ρ) (key : String) : Bool :=
  field.key == key || field.otherKey == some key

end RecordField

/-- A record while it is read. -/
structure Draft (ρ : Type) where
  record : ρ
  /-- The keys of the fields read so far. -/
  filled : List String

namespace Draft

variable {ρ : Type}

/-- Reads the value of a field. -/
def fill (draft : Draft ρ) (field : RecordField ρ) : Reader (Draft ρ) := do
  let put ← field.fill
  pure ⟨put draft.record, field.key :: draft.filled⟩

/-- Puts what stands for a field that was not read, if that may be. -/
def supply (draft : Draft ρ) (value : Option (ρ → ρ)) : Reader (Draft ρ) :=
  match value with
  | some put => pure { draft with record := put draft.record }
  | none => throw .shape

/-- Completes a record that was written as an object. -/
def complete (draft : Draft ρ) (field : RecordField ρ) : Reader (Draft ρ) :=
  if draft.filled.contains field.key then pure draft else draft.supply field.missing

/-- Reads a member of an object. -/
def member (fields : List (RecordField ρ)) (draft : Draft ρ) : Reader (Draft ρ) := do
  Reader.expectKey
  let key ← Reader.string
  match fields.find? (·.hasKey key) with
  | none =>
    Reader.expect ':'
    Reader.skip
    pure draft
  | some field =>
    if draft.filled.contains field.key then throw .shape
    Reader.expect ':'
    draft.fill field

/-- Reads fields in their own order up to the end of an array; `first` tells that none was read
yet. -/
def items : List (RecordField ρ) → Bool → Draft ρ → Reader (Draft ρ)
  | [], _, draft => do
    Reader.expect ']'
    pure draft
  | field :: rest, first, draft => do
    match ← Reader.next? with
    | none => throw .unfinished
    | some c =>
      if c == ']' then items rest first (← draft.supply field.cutOff)
      else if first then items rest false (← draft.fill field)
      else if c == ',' then
        Reader.advance
        if (← Reader.next?) == some ']' then throw .grammar
        items rest false (← draft.fill field)
      else throw .grammar

end Draft

/-- A record with the given fields. What `blank` holds is replaced field by field. -/
def Reader.record {ρ : Type} (fields : List (RecordField ρ)) (blank : ρ) : Reader ρ := do
  match ← next? with
  | none => throw .unfinished
  | some '\x7b' =>
    advance
    let draft ← between '\x7d' (Draft.member fields) ⟨blank, []⟩
    return (← fields.foldlM Draft.complete draft).record
  | some '[' =>
    advance
    return (← Draft.items fields true ⟨blank, []⟩).record
  | some _ => misfit

end ComponentSchema.Json
