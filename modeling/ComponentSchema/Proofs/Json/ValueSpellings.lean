import ComponentSchema.Json.Printer
import ComponentSchema.Json.Reader

/-!
# Spellings of a JSON value

A value has one text only up to the blanks between its tokens: on one line or over many, the brackets,
the commas, the colons and the strings are the same. `Spells` says which texts spell a value;
`IsText` allows for blanks around it as well.

Results.
* `spells_written`: the text that is written for a value spells it, whatever its level.
* `isText_text`: so the text of a value is one of its texts.
* `Spells.opens`: the first character of a spelling is neither a blank nor a closing bracket.
-/
namespace ComponentSchema.Json

/-- A text of blanks only. -/
def Blank (text : List Char) : Prop := ∀ c ∈ text, isBlank c

theorem Blank.nil : Blank [] := by simp [Blank]

theorem Blank.replicate (count : Nat) : Blank (List.replicate count ' ') := by
  intro c hc
  rw [List.eq_of_mem_replicate hc]
  decide

theorem Blank.lineBreak (level : Nat) : Blank (lineBreak level) := by
  intro c hc
  rcases List.mem_cons.1 hc with rfl | hc
  · decide
  · exact Blank.replicate _ c hc

/-- Pieces with commas between them, and blanks around every piece. -/
inductive Separated : List (List Char) → List Char → Prop
  | none {blanks : List Char} : Blank blanks → Separated [] blanks
  | last {before piece after : List Char} : Blank before → Blank after →
      Separated [piece] (before ++ (piece ++ after))
  | more {before piece after next text : List Char} {rest : List (List Char)} :
      Blank before → Blank after → Separated (next :: rest) text →
      Separated (piece :: next :: rest) (before ++ (piece ++ (after ++ ',' :: text)))

mutual

/-- Texts that spell a value. -/
inductive Spells : Json → List Char → Prop
  | null : Spells .null "null".toList
  | yes : Spells (.bool true) "true".toList
  | no : Spells (.bool false) "false".toList
  | string (text : String) : Spells (.string text) (quoted text)
  | array {items : List Json} {pieces : List (List Char)} {text : List Char} :
      SpellsItems items pieces → Separated pieces text →
      Spells (.array items) ('[' :: (text ++ [']']))
  | object {members : List (String × Json)} {pieces : List (List Char)} {text : List Char} :
      SpellsMembers members pieces → Separated pieces text →
      Spells (.object members) ('\x7b' :: (text ++ ['\x7d']))

/-- Texts that spell the items of an array one by one. -/
inductive SpellsItems : List Json → List (List Char) → Prop
  | nil : SpellsItems [] []
  | cons {item : Json} {text : List Char} {items : List Json} {pieces : List (List Char)} :
      Spells item text → SpellsItems items pieces → SpellsItems (item :: items) (text :: pieces)

/-- Texts that spell the members of an object one by one. -/
inductive SpellsMembers : List (String × Json) → List (List Char) → Prop
  | nil : SpellsMembers [] []
  | cons {key : String} {value : Json} {before after text : List Char}
      {members : List (String × Json)} {pieces : List (List Char)} :
      Blank before → Blank after → Spells value text → SpellsMembers members pieces →
      SpellsMembers ((key, value) :: members)
        ((quoted key ++ (before ++ ':' :: (after ++ text))) :: pieces)

end

/-- The texts of a value, blanks around it included. -/
def IsText (value : Json) (text : String) : Prop :=
  ∃ before inner after, Blank before ∧ Spells value inner ∧ Blank after ∧
    text.toList = before ++ (inner ++ after)

/-! ## The written text -/

/-- Pieces on lines of their own are separated; the last line break stands before the closing
bracket. -/
theorem separated_onLines (outer level : Nat) {pieces : List (List Char)} (h : pieces ≠ []) :
    Separated pieces (onLines level pieces ++ lineBreak outer) := by
  induction pieces with
  | nil => exact absurd rfl h
  | cons piece rest ih =>
    cases rest with
    | nil =>
      rw [onLines, List.append_assoc]
      exact .last (Blank.lineBreak level) (Blank.lineBreak outer)
    | cons next rest =>
      have htail : Separated (next :: rest) (onLines level (next :: rest) ++ lineBreak outer) :=
        ih (by simp)
      have hline : Separated (piece :: next :: rest) _ :=
        .more (Blank.lineBreak level) Blank.nil htail
      simpa [onLines] using hline

theorem bracketed_eq (opening closing : Char) (level : Nat) (pieces : List (List Char)) :
    ∃ text, Separated pieces text ∧
      bracketed opening closing level pieces = opening :: (text ++ [closing]) := by
  cases pieces with
  | nil => exact ⟨[], .none Blank.nil, rfl⟩
  | cons piece rest =>
    exact ⟨_, separated_onLines level (level + 1) (by simp), by simp [bracketed]⟩

mutual

/-- What is written for a value spells it. -/
theorem spells_written (level : Nat) (value : Json) : Spells value (written level value) := by
  cases value with
  | null => exact .null
  | bool value =>
    cases value with
    | true => exact .yes
    | false => exact .no
  | string text => exact .string text
  | array items =>
    obtain ⟨text, htext, heq⟩ := bracketed_eq '[' ']' level (writtenItems (level + 1) items)
    rw [written, heq]
    exact .array (spellsItems_written (level + 1) items) htext
  | object members =>
    obtain ⟨text, htext, heq⟩ :=
      bracketed_eq '\x7b' '\x7d' level (writtenMembers (level + 1) members)
    rw [written, heq]
    exact .object (spellsMembers_written (level + 1) members) htext

theorem spellsItems_written (level : Nat) (items : List Json) :
    SpellsItems items (writtenItems level items) := by
  cases items with
  | nil => exact .nil
  | cons item rest => exact .cons (spells_written level item) (spellsItems_written level rest)

theorem spellsMembers_written (level : Nat) (members : List (String × Json)) :
    SpellsMembers members (writtenMembers level members) := by
  cases members with
  | nil => exact .nil
  | cons member rest =>
    obtain ⟨key, value⟩ := member
    have hblank : Blank [' '] := Blank.replicate 1
    exact .cons Blank.nil hblank (spells_written level value) (spellsMembers_written level rest)

end

/-- The written text is one of the texts of a value. -/
theorem isText_text (value : Json) : value.IsText value.text := by
  refine ⟨[], written 0 value, [], Blank.nil, spells_written 0 value, Blank.nil, ?_⟩
  simp [text]

/-! ## First characters -/

/-- The characters a value may start with. -/
def openers : List Char := ['n', 't', 'f', '\x22', '[', '\x7b']

theorem Spells.opens {value : Json} {text : List Char} (h : Spells value text) :
    ∃ c ∈ openers, ∃ rest, text = c :: rest := by
  cases h with
  | null => exact ⟨'n', by decide, _, rfl⟩
  | yes => exact ⟨'t', by decide, _, rfl⟩
  | no => exact ⟨'f', by decide, _, rfl⟩
  | string text => exact ⟨'\x22', by decide, _, rfl⟩
  | array hitems hparts => exact ⟨'[', by decide, _, rfl⟩
  | object hmembers hparts => exact ⟨'\x7b', by decide, _, rfl⟩

/-- Only `null` starts with an `n`. -/
theorem Spells.eq_null {value : Json} {rest : List Char} (h : Spells value ('n' :: rest)) :
    value = .null := by
  cases h
  rfl

/-- There are at least as many characters as pieces, if no piece is empty. -/
theorem Separated.length_le {pieces : List (List Char)} {text : List Char}
    (h : Separated pieces text) (hpieces : ∀ piece ∈ pieces, piece ≠ []) :
    pieces.length ≤ text.length := by
  induction h with
  | none hblanks => exact Nat.zero_le _
  | last hbefore hafter =>
    have hpiece := List.length_pos_iff.2 (hpieces _ (List.mem_singleton_self _))
    simp only [List.length_singleton, List.length_append]
    omega
  | more hbefore hafter htail ih =>
    have hlength := ih fun piece hpiece => hpieces piece (List.mem_cons_of_mem _ hpiece)
    simp only [List.length_append, List.length_cons] at hlength ⊢
    omega

end ComponentSchema.Json
