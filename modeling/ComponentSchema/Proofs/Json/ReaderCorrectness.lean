import ComponentSchema.Json.Record
import ComponentSchema.Proofs.Json.ValueSpellings
import Mathlib.Data.List.Forall2
import Mathlib.Data.List.TakeWhile
import Mathlib.Tactic.SplitIfs

/-!
# Reading what spells a value

What the readers find in the texts that spell a value. `Reads reader value found` says that a reader
finds `found` in every spelling of `value`, whatever text follows, and stops right behind it. It is
shown reader by reader, so that a reader built from others needs no more than theirs.

A loop over the parts between brackets reads the pieces one after another (`Takes`); it has enough
steps because no piece is empty. A record is filled by the members of an object (`Fills`), each under
a key that means one field only (`RecordField.Distinct`).

Results.
* `stringRest_quoted`: an escaped string is read back, all its characters included.
* `Reader.run_between`: separated parts are read up to the closing bracket.
* `Reader.reads_ofOption`, `Reader.reads_ofList`: absent values and lists.
* `reads_record`, `reads_inOrder`: records.
* `Reader.Reads.decodes`: what is read from the spellings of a value is read from whole texts.
-/
namespace ComponentSchema.Json

/-! ## Strings -/

theorem stringRest_quote (text : List Char) : stringRest ('\x22' :: text) = .ok ([], text) := by
  rw [stringRest.eq_def]
  simp

theorem stringRest_plain {c : Char} (hquote : c ≠ '\x22') (hbackslash : c ≠ '\\')
    (hcontrol : ¬ c < ' ') (text : List Char) :
    stringRest (c :: text) = (stringRest text).map (prepend c) := by
  rw [stringRest.eq_def]
  simp [hquote, hbackslash, hcontrol]

theorem stringRest_short {e c : Char} (hunit : e ≠ 'u') (hc : shortEscape? e = some c)
    (text : List Char) :
    stringRest ('\\' :: e :: text) = (stringRest text).map (prepend c) := by
  rw [stringRest.eq_def]
  simp [hunit, hc]

/-- The escape of a control character tells its number. -/
theorem codeUnit?_hexDigit : ∀ value < 32,
    codeUnit? '0' '0' (hexDigit (value / 16)) (hexDigit (value % 16)) = some value := by
  decide

/-- Control characters are no halves of a surrogate pair. -/
theorem not_surrogate_of_control : ∀ value < 32,
    isLowSurrogate value = false ∧ isHighSurrogate value = false := by
  decide

theorem stringRest_control {c : Char} (hcontrol : c < ' ') (text : List Char) :
    stringRest ('\\' :: 'u' :: '0' :: '0' :: hexDigit (c.toNat / 16) :: hexDigit (c.toNat % 16) ::
      text) = (stringRest text).map (prepend c) := by
  have hlt : c.toNat < 32 := hcontrol
  have hunit := codeUnit?_hexDigit c.toNat hlt
  obtain ⟨hlow, hhigh⟩ := not_surrogate_of_control c.toNat hlt
  rw [stringRest.eq_def]
  simp [hunit, hlow, hhigh]

/-- A character as it stands in a string is read back. -/
theorem stringRest_escape (c : Char) (text : List Char) :
    stringRest (escape c ++ text) = (stringRest text).map (prepend c) := by
  unfold escape
  split_ifs with hquote hbackslash hbackspace hfeed hline hreturn htab hcontrol
  · rw [beq_iff_eq.1 hquote]
    exact stringRest_short (by decide) rfl text
  · rw [beq_iff_eq.1 hbackslash]
    exact stringRest_short (by decide) rfl text
  · rw [beq_iff_eq.1 hbackspace]
    exact stringRest_short (by decide) rfl text
  · rw [beq_iff_eq.1 hfeed]
    exact stringRest_short (by decide) rfl text
  · rw [beq_iff_eq.1 hline]
    exact stringRest_short (by decide) rfl text
  · rw [beq_iff_eq.1 hreturn]
    exact stringRest_short (by decide) rfl text
  · rw [beq_iff_eq.1 htab]
    exact stringRest_short (by decide) rfl text
  · exact stringRest_control hcontrol text
  · exact stringRest_plain (by simpa using hquote) (by simpa using hbackslash) hcontrol text

/-- A string is read back up to its closing quote, whatever follows. -/
theorem stringRest_quoted (characters text : List Char) :
    stringRest (characters.flatMap escape ++ '\x22' :: text) = .ok (characters, text) := by
  induction characters with
  | nil => exact stringRest_quote text
  | cons c characters ih =>
    rw [List.flatMap_cons, List.append_assoc, stringRest_escape, ih]
    rfl

namespace Reader

variable {α β σ : Type} {blanks text rest : List Char}

/-! ## Tokens -/

/-- Reading goes on where the first reader stopped. -/
theorem run_bind {reader : Reader α} {found : α} (h : reader.run text = .ok (found, rest))
    (next : α → Reader β) : (reader >>= next).run text = (next found).run rest := by
  rw [StateT.run_bind, h]
  rfl

theorem run_map {reader : Reader α} {found : α} (h : reader.run text = .ok (found, rest))
    (f : α → β) : (f <$> reader).run text = .ok (f found, rest) := by
  rw [StateT.run_map, h]
  rfl

theorem run_next? {c : Char} (hblanks : Blank blanks) (hc : isBlank c = false)
    (text : List Char) : next?.run (blanks ++ c :: text) = .ok (some c, c :: text) := by
  have hskip : (blanks ++ c :: text).dropWhile isBlank = c :: text := by
    rw [List.dropWhile_append_of_pos hblanks]
    simp [hc]
  simp [next?, skipBlanks, hskip]
  rfl

theorem run_advance (c : Char) (text : List Char) : advance.run (c :: text) = .ok ((), text) := rfl

theorem run_expect {c : Char} (hblanks : Blank blanks) (hc : isBlank c = false)
    (text : List Char) : (expect c).run (blanks ++ c :: text) = .ok ((), text) := by
  rw [expect, run_bind (run_next? hblanks hc text)]
  simp [advance]
  rfl

theorem afterWord_append (word text : List Char) : afterWord word (word ++ text) = .ok text := by
  induction word with
  | nil => rfl
  | cons c word ih => simpa [afterWord] using ih

theorem run_word (name : String) (rest : List Char) :
    (word name).run (name.toList ++ rest) = .ok ((), rest) := by
  simp [word, afterWord_append]

theorem run_string (value : String) (rest : List Char) :
    string.run (quoted value ++ rest) = .ok (value, rest) := by
  have hrest : stringRest (value.toList.flatMap escape ++ '\x22' :: rest) =
      .ok (value.toList, rest) := stringRest_quoted value.toList rest
  have hquoted : quoted value ++ rest =
      '\x22' :: (value.toList.flatMap escape ++ '\x22' :: rest) := by simp [quoted]
  rw [string, hquoted, run_bind (run_advance _ _)]
  simp [hrest]

/-! ## Parts -/

/-- A piece whose first character is neither a blank nor the closing bracket. -/
def Startable (closing : Char) (piece : List Char) : Prop :=
  ∃ c rest, piece = c :: rest ∧ isBlank c = false ∧ c ≠ closing

/-- What stands before a part: nothing before the first one, a comma before every other. -/
inductive Lead : Bool → List Char → Prop
  | first : Lead true []
  | other {after : List Char} : Blank after → Lead false (after ++ [','])

/-- Reading pieces one after another takes one state to another. -/
inductive Takes (part : σ → Reader σ) : List (List Char) → σ → σ → Prop
  | nil (state : σ) : Takes part [] state state
  | cons {piece : List Char} {pieces : List (List Char)} {before next last : σ} :
      (∀ rest, (part before).run (piece ++ rest) = .ok (next, rest)) →
      Takes part pieces next last → Takes part (piece :: pieces) before last

section Parts

variable {closing : Char} {part : σ → Reader σ}

theorem run_parts_end (hclosing : isBlank closing = false) (hblanks : Blank blanks) (bound : Nat)
    (first : Bool) (state : σ) (rest : List Char) :
    (parts closing part (bound + 1) first state).run (blanks ++ closing :: rest) =
      .ok (state, rest) := by
  rw [parts, run_bind (run_next? hblanks hclosing rest)]
  simp [advance]
  rfl

/-- One part is read, and the others are left to one step fewer. -/
theorem run_parts_part {first : Bool} {lead before piece : List Char} {state next : σ}
    (hcomma : closing ≠ ',') (hlead : Lead first lead) (hbefore : Blank before)
    (hpiece : Startable closing piece)
    (hpart : ∀ rest, (part state).run (piece ++ rest) = .ok (next, rest))
    (bound : Nat) (more : List Char) :
    (parts closing part (bound + 1) first state).run (lead ++ (before ++ (piece ++ more))) =
      (parts closing part bound false next).run more := by
  obtain ⟨c, rest, rfl, hblank, hne⟩ := hpiece
  have hpart := hpart more
  have hnext := run_next? hbefore hblank (rest ++ more)
  rw [List.cons_append] at hpart ⊢
  cases hlead with
  | first =>
    rw [parts, List.nil_append, run_bind hnext]
    simp only [beq_iff_eq, if_neg hne, if_true]
    exact run_bind hpart _
  | other hafter =>
    have hne' : ¬ some c = some closing := by simpa using hne
    rw [parts, List.append_assoc, List.singleton_append,
      run_bind (run_next? hafter (by decide) _)]
    simp only [beq_iff_eq, if_neg (Ne.symm hcomma), Bool.false_eq_true, if_false, if_true]
    rw [run_bind (run_advance _ _), run_bind hnext, if_neg hne']
    exact run_bind hpart _

/-- Separated parts are read up to the closing bracket. -/
theorem run_parts {pieces : List (List Char)} {state last : σ} {first : Bool} {lead : List Char}
    (hclosing : isBlank closing = false) (hcomma : closing ≠ ',')
    (hpieces : ∀ piece ∈ pieces, Startable closing piece) (htext : Separated pieces text)
    (htakes : Takes part pieces state last) (hlead : Lead first lead)
    (hstart : pieces = [] → first = true) {bound : Nat} (hbound : pieces.length < bound)
    (rest : List Char) :
    (parts closing part bound first state).run (lead ++ (text ++ closing :: rest)) =
      .ok (last, rest) := by
  induction htext generalizing state first lead bound with
  | none hblanks =>
    obtain ⟨bound, rfl⟩ := Nat.exists_eq_add_one.2 hbound
    obtain rfl := hstart rfl
    cases hlead
    cases htakes
    exact run_parts_end hclosing hblanks bound true _ rest
  | last hbefore hafter =>
    obtain ⟨bound, rfl⟩ : ∃ n, bound = n + 2 := ⟨bound - 2, by simp at hbound; omega⟩
    cases htakes with
    | cons hpart hrest =>
      cases hrest
      rw [List.append_assoc, List.append_assoc,
        run_parts_part hcomma hlead hbefore (hpieces _ (List.mem_singleton_self _)) hpart]
      exact run_parts_end hclosing hafter bound false _ rest
  | more hbefore hafter htail ih =>
    obtain ⟨bound, rfl⟩ : ∃ n, bound = n + 1 := ⟨bound - 1, by omega⟩
    cases htakes with
    | cons hpart hrest =>
      have hothers := ih (fun piece hpiece => hpieces piece (List.mem_cons_of_mem _ hpiece)) hrest
        (.other hafter) (by simp) (by simpa using hbound)
      rw [List.append_assoc, List.append_assoc,
        run_parts_part hcomma hlead hbefore (hpieces _ (List.mem_cons_self ..)) hpart]
      simpa using hothers

theorem run_between {pieces : List (List Char)} {state last : σ}
    (hclosing : isBlank closing = false) (hcomma : closing ≠ ',')
    (hpieces : ∀ piece ∈ pieces, Startable closing piece) (htext : Separated pieces text)
    (htakes : Takes part pieces state last) (rest : List Char) :
    (between closing part state).run (text ++ closing :: rest) = .ok (last, rest) := by
  have hlength : pieces.length ≤ text.length := by
    refine htext.length_le fun piece hpiece => ?_
    obtain ⟨c, tail, rfl, -⟩ := hpieces piece hpiece
    simp
  refine run_parts hclosing hcomma hpieces htext htakes .first (fun _ => rfl) ?_ rest
  simp only [List.length_append, List.length_cons]
  omega

end Parts

/-! ## Values -/

/-- A reader takes every spelling of a value, with blanks before it and whatever behind it, and
finds something in it. -/
def Reads (reader : Reader α) (value : Json) (found : α) : Prop :=
  ∀ ⦃blanks text : List Char⦄, Blank blanks → Spells value text → ∀ rest,
    reader.run (blanks ++ (text ++ rest)) = .ok (found, rest)

variable {reader : Reader α} {value : Json} {found : α}

theorem Reads.map (h : Reads reader value found) (f : α → β) :
    Reads (f <$> reader) value (f found) :=
  fun _ _ hblanks htext rest => run_map (h hblanks htext rest) f

/-- A value that is read can be read right where it starts. -/
theorem Reads.run (h : Reads reader value found) (htext : Spells value text) (rest : List Char) :
    reader.run (text ++ rest) = .ok (found, rest) :=
  h Blank.nil htext rest

theorem reads_text (value : String) : Reads Reader.text (.string value) value := by
  intro blanks text hblanks htext rest
  cases htext
  have hnext : next?.run (blanks ++ (quoted value ++ rest)) =
      .ok (some '\x22', quoted value ++ rest) := run_next? hblanks (by decide) _
  rw [Reader.text, run_bind hnext]
  exact run_string value rest

theorem reads_flag (value : Bool) : Reads flag (.bool value) value := by
  intro blanks text hblanks htext rest
  cases htext with
  | yes =>
    have hnext : next?.run (blanks ++ ("true".toList ++ rest)) =
        .ok (some 't', "true".toList ++ rest) := run_next? hblanks (by decide) _
    rw [flag, run_bind hnext]
    exact run_bind (run_word "true" rest) _
  | no =>
    have hnext : next?.run (blanks ++ ("false".toList ++ rest)) =
        .ok (some 'f', "false".toList ++ rest) := run_next? hblanks (by decide) _
    rw [flag, run_bind hnext]
    exact run_bind (run_word "false" rest) _

theorem reads_none (reader : Reader α) : Reads reader.nullable .null none := by
  intro blanks text hblanks htext rest
  cases htext
  have hnext : next?.run (blanks ++ ("null".toList ++ rest)) =
      .ok (some 'n', "null".toList ++ rest) := run_next? hblanks (by decide) _
  rw [nullable, run_bind hnext, if_pos (by decide)]
  exact run_bind (run_word "null" rest) _

theorem opener_not_blank : ∀ c ∈ openers, isBlank c = false := by
  simp [openers, isBlank]

theorem reads_some (h : Reads reader value found) (hvalue : value ≠ .null) :
    Reads reader.nullable value (some found) := by
  intro blanks text hblanks htext rest
  obtain ⟨c, hc, tail, rfl⟩ := htext.opens
  have hnext := run_next? hblanks (opener_not_blank c hc) (tail ++ rest)
  have hne : ¬ (some c == some 'n') = true := by
    intro heq
    obtain rfl : c = 'n' := by simpa using heq
    exact hvalue htext.eq_null
  rw [nullable, List.cons_append, run_bind hnext, if_neg hne]
  exact run_map (h.run htext rest) some

/-- An absent value is read from `null`, any other from what is written for it. -/
theorem reads_ofOption {write : α → Json} {value : Option α}
    (h : ∀ found ∈ value, Reads reader (write found) found) (hwrite : ∀ found, write found ≠ .null) :
    Reads reader.nullable (.ofOption write value) value := by
  cases value with
  | none => exact reads_none reader
  | some found => exact reads_some (h found rfl) (hwrite found)

/-! ## Lists -/

theorem opener_startable {text : List Char} (htext : Spells value text) : Startable ']' text := by
  obtain ⟨c, hc, rest, rfl⟩ := htext.opens
  have hne : ∀ c ∈ openers, c ≠ ']' := by simp [openers]
  exact ⟨c, rest, rfl, opener_not_blank c hc, hne c hc⟩

theorem items_startable {items : List Json} {pieces : List (List Char)}
    (h : SpellsItems items pieces) : ∀ piece ∈ pieces, Startable ']' piece := by
  induction items generalizing pieces with
  | nil =>
    cases h
    simp
  | cons item items ih =>
    cases h with
    | cons hitem hitems =>
      intro piece hpiece
      rcases List.mem_cons.1 hpiece with rfl | hpiece
      · exact opener_startable hitem
      · exact ih hitems piece hpiece

/-- Each item that is read is put behind the ones before it. -/
theorem takes_items {items : List Json} {pieces : List (List Char)} {found : List α}
    (hpieces : SpellsItems items pieces) (hitems : List.Forall₂ (Reads reader) items found)
    (start : List α) :
    Takes (fun found => return found ++ [← reader]) pieces start (start ++ found) := by
  induction hitems generalizing pieces start with
  | nil =>
    cases hpieces
    simpa using Takes.nil start
  | @cons item value items found hitem hitems ih =>
    cases hpieces with
    | cons htext hrest =>
      have hothers := ih hrest (start ++ [value])
      rw [List.append_assoc, List.singleton_append] at hothers
      exact .cons (fun rest => run_bind (hitem.run htext rest) _) hothers

theorem reads_list {items : List Json} {found : List α}
    (h : List.Forall₂ (Reads reader) items found) : Reads reader.list (.array items) found := by
  intro blanks text hblanks htext rest
  cases htext with
  | @array _ pieces text hitems hparts =>
    have hnext := run_next? hblanks (c := '[') (by decide) (text ++ ']' :: rest)
    have htakes := takes_items hitems h []
    have hbetween := run_between (by decide) (by decide) (items_startable hitems) hparts htakes rest
    rw [List.cons_append, List.append_assoc, List.singleton_append, list, run_bind hnext]
    exact (run_bind (run_advance '[' _) _).trans hbetween

theorem reads_ofList {write : α → Json} {values : List α}
    (h : ∀ value ∈ values, Reads reader (write value) value) :
    Reads reader.list (.ofList write values) values := by
  refine reads_list ?_
  rw [List.forall₂_map_left_iff, List.forall₂_same]
  exact h

end Reader

/-! ## Records -/

namespace RecordField

variable {ρ : Type}

/-- The keys that mean a field. -/
def keys (field : RecordField ρ) : List String := field.key :: field.otherKey.toList

theorem hasKey_iff {field : RecordField ρ} {key : String} : field.hasKey key ↔ key ∈ field.keys := by
  simp [hasKey, keys, Option.mem_toList, eq_comm (a := key)]

/-- No key means two fields. -/
def Distinct (fields : List (RecordField ρ)) : Prop := (fields.flatMap keys).Nodup

instance (fields : List (RecordField ρ)) : Decidable (Distinct fields) :=
  inferInstanceAs (Decidable (fields.flatMap keys).Nodup)

theorem Distinct.find? {fields : List (RecordField ρ)} (h : Distinct fields) {field : RecordField ρ}
    (hfield : field ∈ fields) {key : String} (hkey : key ∈ field.keys) :
    fields.find? (·.hasKey key) = some field := by
  induction fields with
  | nil => simp at hfield
  | cons first rest ih =>
    rw [Distinct, List.flatMap_cons, List.nodup_append] at h
    obtain ⟨-, hrest, hapart⟩ := h
    rcases List.mem_cons.1 hfield with rfl | hfield
    · exact List.find?_cons_of_pos (hasKey_iff.2 hkey)
    · have hlater : key ∈ rest.flatMap keys := List.mem_flatMap.2 ⟨field, hfield, hkey⟩
      have hfirst : ¬ first.hasKey key := fun hhas => hapart key (hasKey_iff.1 hhas) key hlater rfl
      have hskip : (first :: rest).find? (·.hasKey key) = rest.find? (·.hasKey key) :=
        List.find?_cons_of_neg hfirst
      exact hskip.trans (ih hrest hfield)

end RecordField

section Record

open Reader RecordField

variable {ρ : Type} {fields : List (RecordField ρ)}

/-- A member that means a field not read before fills it. -/
theorem run_member {draft : Draft ρ} {field : RecordField ρ} {key : String} {value : Json}
    {put : ρ → ρ} {before after text : List Char} (hdistinct : Distinct fields)
    (hfield : field ∈ fields) (hkey : key ∈ field.keys) (hnew : field.key ∉ draft.filled)
    (hreads : Reads field.fill value put) (hbefore : Blank before) (hafter : Blank after)
    (htext : Spells value text) (rest : List Char) :
    (Draft.member fields draft).run
        ((quoted key ++ (before ++ ':' :: (after ++ text))) ++ rest) =
      .ok (⟨put draft.record, field.key :: draft.filled⟩, rest) := by
  have hkeyed : expectKey.run (quoted key ++ (before ++ ':' :: (after ++ (text ++ rest)))) =
      .ok ((), quoted key ++ (before ++ ':' :: (after ++ (text ++ rest)))) := by
    have hnext : next?.run (quoted key ++ (before ++ ':' :: (after ++ (text ++ rest)))) =
        .ok (some '\x22', quoted key ++ (before ++ ':' :: (after ++ (text ++ rest)))) :=
      run_next? Blank.nil (by decide) _
    rw [expectKey, run_bind hnext]
    rfl
  have hcolon := run_expect hbefore (c := ':') (by decide) (after ++ (text ++ rest))
  have hnew' : ¬ draft.filled.contains field.key = true := by simpa using hnew
  simp only [List.append_assoc, List.cons_append]
  rw [Draft.member, run_bind hkeyed, run_bind (run_string key _), hdistinct.find? hfield hkey]
  simp only [if_neg hnew']
  rw [run_bind hcolon, Draft.fill]
  exact run_bind (hreads hafter htext rest) _

/-- Members that fill one field after another. -/
inductive Fills (fields : List (RecordField ρ)) : List (String × Json) → Draft ρ → Draft ρ → Prop
  | nil (draft : Draft ρ) : Fills fields [] draft draft
  | cons {field : RecordField ρ} {key : String} {value : Json} {put : ρ → ρ}
      {members : List (String × Json)} {before last : Draft ρ} :
      field ∈ fields → key ∈ field.keys → field.key ∉ before.filled →
      Reads field.fill value put →
      Fills fields members ⟨put before.record, field.key :: before.filled⟩ last →
      Fills fields ((key, value) :: members) before last

theorem Fills.takes {members : List (String × Json)} {draft last : Draft ρ}
    {pieces : List (List Char)} (hdistinct : Distinct fields)
    (h : Fills fields members draft last) (hpieces : SpellsMembers members pieces) :
    Takes (Draft.member fields) pieces draft last := by
  induction h generalizing pieces with
  | nil draft =>
    cases hpieces
    exact .nil draft
  | cons hfield hkey hnew hreads _ ih =>
    cases hpieces with
    | cons hbefore hafter htext hrest =>
      exact .cons (run_member hdistinct hfield hkey hnew hreads hbefore hafter htext) (ih hrest)

theorem members_startable {members : List (String × Json)} {pieces : List (List Char)}
    (h : SpellsMembers members pieces) : ∀ piece ∈ pieces, Startable '\x7d' piece := by
  induction members generalizing pieces with
  | nil =>
    cases h
    simp
  | cons member members ih =>
    cases h with
    | cons hbefore hafter htext hrest =>
      intro piece hpiece
      rcases List.mem_cons.1 hpiece with rfl | hpiece
      · exact ⟨'\x22', _, rfl, by decide, by decide⟩
      · exact ih hrest piece hpiece

/-- A record all of whose fields were filled is complete. -/
theorem run_complete {draft : Draft ρ} (text : List Char) :
    ∀ fields : List (RecordField ρ), (∀ field ∈ fields, field.key ∈ draft.filled) →
      (fields.foldlM Draft.complete draft).run text = .ok (draft, text)
  | [], _ => rfl
  | field :: rest, h => by
    have hfield : draft.filled.contains field.key = true := by
      simpa using h field (List.mem_cons_self ..)
    rw [List.foldlM_cons, Draft.complete, if_pos hfield, pure_bind]
    exact run_complete text rest fun field hmem => h field (List.mem_cons_of_mem _ hmem)

/-- An object whose members fill all fields of a record is read as the record. -/
theorem reads_record {members : List (String × Json)} {blank : ρ} {draft : Draft ρ}
    (hdistinct : Distinct fields) (hfills : Fills fields members ⟨blank, []⟩ draft)
    (hall : ∀ field ∈ fields, field.key ∈ draft.filled) :
    Reads (Reader.record fields blank) (.object members) draft.record := by
  intro blanks text hblanks htext rest
  cases htext with
  | @object _ pieces text hmembers hparts =>
    have hnext := run_next? hblanks (c := '\x7b') (by decide) (text ++ '\x7d' :: rest)
    have htakes := hfills.takes hdistinct hmembers
    have hbetween :=
      run_between (by decide) (by decide) (members_startable hmembers) hparts htakes rest
    rw [List.cons_append, List.append_assoc, List.singleton_append, Reader.record, run_bind hnext]
    refine (run_bind (run_advance '\x7b' _) _).trans ?_
    exact (run_bind hbetween _).trans (run_bind (run_complete rest fields hall) _)

/-- Members that stand in the order of the fields they mean. -/
inductive InOrder : List (RecordField ρ) → List (String × Json) → ρ → ρ → Prop
  | nil (record : ρ) : InOrder [] [] record record
  | cons {field : RecordField ρ} {rest : List (RecordField ρ)} {key : String} {value : Json}
      {put : ρ → ρ} {members : List (String × Json)} {record last : ρ} :
      key ∈ field.keys → Reads field.fill value put → InOrder rest members (put record) last →
      InOrder (field :: rest) ((key, value) :: members) record last

theorem InOrder.fills {all rest : List (RecordField ρ)} {members : List (String × Json)}
    {record last : ρ} (h : InOrder rest members record last) (hall : ∀ field ∈ rest, field ∈ all)
    (hkeys : (rest.map (·.key)).Nodup) {filled : List String}
    (hnew : ∀ field ∈ rest, field.key ∉ filled) :
    ∃ draft, Fills all members ⟨record, filled⟩ draft ∧ draft.record = last ∧
      (∀ key ∈ filled, key ∈ draft.filled) ∧ ∀ field ∈ rest, field.key ∈ draft.filled := by
  induction h generalizing filled with
  | nil record => exact ⟨⟨record, filled⟩, .nil _, rfl, fun _ hkey => hkey, by simp⟩
  | @cons field rest key value put members record last hkey hreads _ ih =>
    rw [List.map_cons, List.nodup_cons] at hkeys
    have hnew' : ∀ other ∈ rest, other.key ∉ field.key :: filled := by
      intro other hother hmem
      rcases List.mem_cons.1 hmem with heq | hmem
      · exact hkeys.1 (heq ▸ List.mem_map_of_mem hother)
      · exact hnew other (List.mem_cons_of_mem _ hother) hmem
    obtain ⟨draft, hfills, hrecord, hkept, hfilled⟩ :=
      ih (fun other hother => hall other (List.mem_cons_of_mem _ hother)) hkeys.2 hnew'
    have hfield : field ∈ field :: rest := List.mem_cons_self ..
    refine ⟨draft, .cons (hall field hfield) hkey (hnew field hfield) hreads hfills, hrecord,
      fun key hmem => hkept key (List.mem_cons_of_mem _ hmem), fun other hother => ?_⟩
    rcases List.mem_cons.1 hother with rfl | hother
    · exact hkept _ (List.mem_cons_self ..)
    · exact hfilled other hother

theorem RecordField.Distinct.nodup_key (h : Distinct fields) : (fields.map (·.key)).Nodup := by
  have hsub : (fields.map (·.key)).Sublist (fields.flatMap keys) := by
    clear h
    induction fields with
    | nil => simp
    | cons field rest ih =>
      rw [List.map_cons, List.flatMap_cons, keys, List.cons_append]
      exact (ih.trans (List.sublist_append_right ..)).cons_cons _
  exact h.sublist hsub

/-- A record is read from an object of its fields in their order. -/
theorem reads_inOrder {members : List (String × Json)} {blank record : ρ}
    (hdistinct : Distinct fields) (h : InOrder fields members blank record) :
    Reads (Reader.record fields blank) (.object members) record := by
  obtain ⟨draft, hfills, rfl, -, hall⟩ :=
    h.fills (fun _ hfield => hfield) hdistinct.nodup_key fun _ _ => List.not_mem_nil
  exact reads_record hdistinct hfills hall

end Record

/-! ## Whole texts -/

/-- A reader finds something in every text of a value. -/
def Decodes {α : Type} (reader : Reader α) (value : Json) (found : α) : Prop :=
  ∀ text, value.IsText text → reader.ofText text = .ok found

theorem Reader.Reads.decodes {α : Type} {reader : Reader α} {value : Json} {found : α}
    (h : reader.Reads value found) : Decodes reader value found := by
  rintro text ⟨before, inner, after, hbefore, hinner, hafter, htext⟩
  have hrun : reader text.toList = .ok (found, after) := by
    rw [htext]
    exact h hbefore hinner after
  have hend : after.dropWhile isBlank = [] := List.dropWhile_eq_nil_iff.2 hafter
  simp [Reader.ofText, hrun, hend, bind, Except.bind]
  rfl

end ComponentSchema.Json
