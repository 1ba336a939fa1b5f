import ComponentSchema.Proofs.Json.ReaderCorrectness
import ComponentSchema.Record.Json
import Mathlib.Data.List.Permutation

/-!
# Written records are read back

The writer of a record lists its members under fixed keys; the reader looks every key up among the
fields of the record, some of which answer to a second key. The two are independent, so that a
record is read back from what was written for it has to be shown record by record: the fields stand
in the order of the members (`InOrder`), and each reads the value of its member.

An entry holds lists of entries, and its reader allows only so many open brackets. So entries are
read by induction on that number, two brackets at a time: those of the entry and of the list in it.

Results.
* `Component.reads`, `Property.reads`, `Schema.reads`, `Documentation.reads`,
  `DocEntry.reads_readerWithin`: each record is read from all spellings of what is written for it.
* `Component.reads_otherMembers`: a component may name its props schema under its other key.
* `records_round_trip`: the whole texts, those with the layout of a written document included.
-/
namespace ComponentSchema

open Json Json.Reader

/-! ## Nesting -/

namespace Json

mutual

/-- How many brackets are open at once in the texts of a value. -/
def nesting : Json → Nat
  | null | bool _ | string _ => 0
  | array items => itemsNesting items + 1
  | object members => membersNesting members + 1

/-- The nesting of the deepest item. -/
def itemsNesting : List Json → Nat
  | [] => 0
  | item :: rest => max (nesting item) (itemsNesting rest)

/-- The nesting of the deepest member. -/
def membersNesting : List (String × Json) → Nat
  | [] => 0
  | (_, value) :: rest => max (nesting value) (membersNesting rest)

end

theorem nesting_le_of_mem {items : List Json} {item : Json} (h : item ∈ items) :
    item.nesting ≤ itemsNesting items := by
  induction items with
  | nil => simp at h
  | cons first rest ih =>
    rw [itemsNesting]
    rcases List.mem_cons.1 h with rfl | h
    · exact Nat.le_max_left ..
    · exact (ih h).trans (Nat.le_max_right ..)

end Json

/-! ## Fields -/

section Fields

variable {ρ α : Type} {reader : Reader α} {key : String}

theorem reads_required {value : Json} {found : α} (h : Reads reader value found)
    (put : α → ρ → ρ) : Reads (RecordField.required key reader put).fill value (put found) :=
  h.map put

theorem reads_optional {value : Json} {found : Option α} (h : Reads reader.nullable value found)
    (put : Option α → ρ → ρ) :
    Reads (RecordField.optional key reader put).fill value (put found) :=
  h.map put

/-- A second key changes nothing in what a field is filled with. -/
theorem reads_orKey {field : RecordField ρ} {value : Json} {put : ρ → ρ}
    (h : Reads field.fill value put) (other : String) : Reads (field.orKey other).fill value put := h

/-- A text that may be absent. -/
theorem reads_maybeText (put : Option String → ρ → ρ) (value : Option String) :
    Reads (RecordField.optional key Reader.text put).fill (.ofOption .string value) (put value) :=
  reads_optional (reads_ofOption (fun found _ => reads_text found) fun _ => Json.noConfusion) put

end Fields

/-! ## Records -/

theorem Component.reads (component : Component) :
    Reads Component.reader component.toJson component :=
  reads_inOrder (by decide)
    (.cons (by decide) (reads_required (reads_text _) _)
      (.cons (by decide) (reads_orKey (reads_maybeText _ _) _) (.nil _)))

theorem Property.reads (property : Property) : Reads Property.reader property.toJson property :=
  reads_inOrder (by decide)
    (.cons (by decide) (reads_required (reads_text _) _)
      (.cons (by decide) (reads_maybeText _ _)
        (.cons (by decide) (reads_maybeText _ _)
          (.cons (by decide) (reads_required (reads_flag _) _) (.nil _)))))

theorem Schema.reads (schema : Schema) : Reads Schema.reader schema.toJson schema :=
  reads_inOrder (by decide)
    (.cons (by decide) (reads_required (reads_text _) _)
      (.cons (by decide)
        (reads_required (reads_ofList fun property _ => property.reads) _) (.nil _)))

theorem Documentation.reads (document : Documentation) :
    Reads Documentation.reader document.toJson { document with classes := [] } :=
  reads_inOrder (by decide)
    (.cons (by decide) (reads_required (reads_ofList fun schema _ => schema.reads) _)
      (.cons (by decide)
        (reads_required (reads_ofList fun component _ => component.reads) _) (.nil _)))

namespace DocEntry

theorem entries_eq_map (list : List DocEntry) : entries list = list.map toJson := by
  induction list with
  | nil => rfl
  | cons entry rest ih => rw [entries, ih, List.map_cons]

theorem distinct_fields (list : Reader (List DocEntry)) : RecordField.Distinct (fields list) := by
  have hkeys : ["name", "fileName", "documentation", "type", "constructors", "parameters",
      "returnType"].Nodup := by decide
  exact hkeys

/-- An entry is read if its lists of entries are. -/
theorem reads_record {list : Reader (List DocEntry)} (entry : DocEntry)
    (hconstructors : Reads list.nullable (optionalEntries entry.constructors) entry.constructors)
    (hparameters : Reads list.nullable (optionalEntries entry.parameters) entry.parameters) :
    Reads (Reader.record (fields list) DocEntry.blank) entry.toJson entry := by
  obtain ⟨name, fileName, documentation, typeText, constructors, parameters, returnType⟩ := entry
  rw [toJson]
  exact reads_inOrder (distinct_fields list)
    (.cons (by decide) (reads_maybeText _ _)
      (.cons (by decide) (reads_maybeText _ _)
        (.cons (by decide) (reads_maybeText _ _)
          (.cons (by decide) (reads_maybeText _ _)
            (.cons (List.mem_cons_self ..) (reads_optional hconstructors _)
              (.cons (List.mem_cons_self ..) (reads_optional hparameters _)
                (.cons (by decide) (reads_maybeText _ _) (.nil _))))))))

/-- The lists of an entry stand within its brackets. -/
theorem nesting_lists (entry : DocEntry) :
    (optionalEntries entry.constructors).nesting < entry.toJson.nesting ∧
      (optionalEntries entry.parameters).nesting < entry.toJson.nesting := by
  obtain ⟨name, fileName, documentation, typeText, constructors, parameters, returnType⟩ := entry
  simp only [toJson, nesting, membersNesting]
  omega

/-- A list of entries that may be absent is read if its entries are. -/
theorem reads_optionalEntries {reader : Reader DocEntry} {bound : Nat}
    (h : ∀ entry : DocEntry, entry.toJson.nesting ≤ bound → Reads reader entry.toJson entry)
    (list : Option (List DocEntry)) (hlist : (optionalEntries list).nesting ≤ bound + 1) :
    Reads reader.list.nullable (optionalEntries list) list := by
  cases list with
  | none => exact reads_none _
  | some entries =>
    rw [optionalEntries, entries_eq_map] at hlist ⊢
    refine reads_some (reads_ofList fun entry hentry => h entry ?_) Json.noConfusion
    have hle := nesting_le_of_mem (List.mem_map_of_mem (f := toJson) hentry)
    rw [nesting] at hlist
    omega

/-- A list of entries is absent where no bracket may open. -/
theorem reads_absentEntries (reader : Reader (List DocEntry)) (list : Option (List DocEntry))
    (hlist : (optionalEntries list).nesting = 0) :
    Reads reader.nullable (optionalEntries list) list := by
  cases list with
  | none => exact reads_none _
  | some entries => simp [optionalEntries, nesting] at hlist

/-- An entry is read if it nests no deeper than its reader allows. -/
theorem reads_readerWithin : ∀ (depth : Nat) (entry : DocEntry), entry.toJson.nesting ≤ depth →
    Reads (readerWithin depth) entry.toJson entry
  | 0, entry, h => by
    have hlists := nesting_lists entry
    omega
  | 1, entry, h => by
    obtain ⟨hconstructors, hparameters⟩ := nesting_lists entry
    rw [readerWithin]
    exact reads_record entry (reads_absentEntries _ _ (by omega)) (reads_absentEntries _ _ (by omega))
  | depth + 2, entry, h => by
    obtain ⟨hconstructors, hparameters⟩ := nesting_lists entry
    have hentries := reads_readerWithin depth
    rw [readerWithin]
    exact reads_record entry (reads_optionalEntries hentries _ (by omega))
      (reads_optionalEntries hentries _ (by omega))

end DocEntry

/-! ## The other key -/

namespace Component

/-- The members of a component whose props schema is named under the other key. -/
def otherMembers (component : Component) : List (String × Json) := [
  ("name", .string component.name),
  ("propsName", .ofOption .string component.propsSchemaName)]

/-- The other key means the same field, wherever it stands. -/
theorem reads_otherMembers (component : Component) {members : List (String × Json)}
    (h : members.Perm component.otherMembers) :
    Reads Component.reader (.object members) component := by
  have hname : ∀ put : String → Component → Component,
      Reads (RecordField.required "name" Reader.text put).fill (.string component.name)
        (put component.name) := reads_required (reads_text _)
  rcases List.perm_pair.1 h with rfl | rfl
  · exact reads_inOrder (by decide)
      (.cons (by decide) (hname _)
        (.cons (by decide) (reads_orKey (reads_maybeText _ _) _) (.nil _)))
  · have hnew : "name" ∉ ["propsSchemaName"] := by decide
    have hall : ∀ field ∈ fields, field.key ∈ ["name", "propsSchemaName"] := by decide
    exact Json.reads_record (by decide)
      (.cons (List.mem_cons_of_mem _ (List.mem_cons_self ..)) (by decide) List.not_mem_nil
        (reads_orKey (reads_maybeText _ _) _)
        (.cons (List.mem_cons_self ..) (by decide) hnew (hname _) (.nil _)))
      hall

end Component

/-- Every record is read back from its text, however that is laid out. A written document comes back
without its classes, and an entry has to nest no deeper than its reader allows. -/
theorem records_round_trip :
    (∀ document : Documentation,
      Documentation.reader.ofText document.render = .ok { document with classes := [] }) ∧
    (∀ component : Component, Decodes Component.reader component.toJson component) ∧
    (∀ property : Property, Decodes Property.reader property.toJson property) ∧
    (∀ schema : Schema, Decodes Schema.reader schema.toJson schema) ∧
    (∀ entry : DocEntry, entry.toJson.nesting ≤ DocEntry.nestingLimit →
      Decodes DocEntry.reader entry.toJson entry) ∧
    (∀ component : Component, ∀ members, members.Perm component.otherMembers →
      Decodes Component.reader (.object members) component) ∧
    ∀ value : Json, value.IsText value.text := by
  refine ⟨fun document => document.reads.decodes _ (isText_text _), fun component => ?_,
    fun property => ?_, fun schema => ?_, fun entry hentry => ?_, fun component members h => ?_,
    isText_text⟩
  · exact component.reads.decodes
  · exact property.reads.decodes
  · exact schema.reads.decodes
  · exact (DocEntry.reads_readerWithin _ entry hentry).decodes
  · exact (component.reads_otherMembers h).decodes

end ComponentSchema
