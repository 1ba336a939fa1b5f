import ComponentSchema.Doc.Comment
import ComponentSchema.Proofs.Text.Separators
import Mathlib.Data.List.DropRight
import Mathlib.Data.List.Nodup

/-!
# Doc comments that are written out

A doc comment is usually laid out line by line, each line behind a star: the description first, then
for each parameter a tag with its type in braces, its name, a dash and the first chunk of its text,
and the other chunks on lines of their own. Whatever else the lines hold, stars, dashes, brackets or
at signs, is text: what is read back is the description line by line and, for each parameter, its
chunks with a blank between them.

* `content_starred`: a line is found again behind its star.
* `foldl_lines`: the lines of a parameter are read as one tag.
* `parameterOf?_tagText`: name and text are found again in the text of that tag.
* `ofComments_comment`: the doc comment that stands last is read back as it was laid out.
-/
namespace ComponentSchema

open Syntax

/-! ## Trimmed texts -/

namespace Text

variable {text : List Char}

/-- No blanks at the ends. -/
def Trimmed (text : List Char) : Prop := trim text = text

instance (text : List Char) : Decidable (Trimmed text) := inferInstanceAs (Decidable (trim text = text))

theorem trimLeft_cons {c : Char} (h : isBlank c = false) (rest : List Char) :
    trimLeft (c :: rest) = c :: rest := by
  simp [trimLeft, h]

theorem trimLeft_append {blanks : List Char} (h : ∀ c ∈ blanks, isBlank c) (text : List Char) :
    trimLeft (blanks ++ text) = trimLeft text :=
  List.dropWhile_append_of_pos h

theorem trimRight_append {blanks : List Char} (h : ∀ c ∈ blanks, isBlank c) (text : List Char) :
    trimRight (text ++ blanks) = trimRight text := by
  have hreverse : ∀ c ∈ blanks.reverse, isBlank c := fun c hc => h c (List.mem_reverse.1 hc)
  rw [trimRight, List.reverse_append, List.dropWhile_append_of_pos hreverse, trimRight]

theorem trimLeft_eq_self_iff : trimLeft text = text ↔ ∀ c, text.head? = some c → isBlank c = false := by
  cases text with
  | nil => simp [trimLeft]
  | cons c rest => simp [trimLeft]

theorem trimRight_eq_self_iff :
    trimRight text = text ↔ ∀ c, text.getLast? = some c → isBlank c = false := by
  have hreverse : trimRight text = text ↔ trimLeft text.reverse = text.reverse :=
    List.reverse_eq_iff
  rw [hreverse, trimLeft_eq_self_iff, List.head?_reverse]

/-- A text is trimmed if neither its first nor its last character is a blank. -/
theorem trimmed_iff : Trimmed text ↔ (∀ c, text.head? = some c → isBlank c = false) ∧
    ∀ c, text.getLast? = some c → isBlank c = false := by
  rw [← trimLeft_eq_self_iff, ← trimRight_eq_self_iff]
  refine ⟨fun h => ?_, fun h => ?_⟩
  · have hright : (trimRight (trimLeft text)).length ≤ (trimLeft text).length :=
      (List.rdropWhile_prefix isBlank _).length_le
    have hleft : trimLeft text = text := by
      refine (List.dropWhile_suffix isBlank).eq_of_length_le ?_
      rwa [show trimRight (trimLeft text) = text from h] at hright
    refine ⟨hleft, ?_⟩
    rw [← hleft]
    exact h.trans hleft.symm
  · rw [Trimmed, trim, h.1, h.2]

/-- A trimmed text is found again between blanks. -/
theorem trim_between {before after : List Char} (hbefore : ∀ c ∈ before, isBlank c)
    (hafter : ∀ c ∈ after, isBlank c) (h : Trimmed text) : trim (before ++ text ++ after) = text := by
  rw [trim, List.append_assoc, trimLeft_append hbefore]
  cases text with
  | nil =>
    have hnil : trimLeft after = [] := List.dropWhile_eq_nil_iff.2 hafter
    rw [List.nil_append, hnil]
    rfl
  | cons c rest =>
    rw [List.cons_append, trimLeft_cons ((trimmed_iff.1 h).1 c rfl), ← List.cons_append,
      trimRight_append hafter]
    exact trimRight_eq_self_iff.2 (trimmed_iff.1 h).2

theorem isBlank_blank : isBlank ' ' := by decide

theorem trimLeft_blank (text : List Char) : trimLeft (' ' :: text) = trimLeft text :=
  List.dropWhile_cons_of_pos isBlank_blank

theorem trim_blank (h : Trimmed text) : trim (' ' :: text) = text := by
  rw [trim, trimLeft_blank]
  exact h

/-- Trimmed pieces make up a trimmed text, unless an empty one stands at an end. -/
theorem trimmed_intercalate {separator : Char} {pieces : List (List Char)}
    (h : ∀ piece ∈ pieces, Trimmed piece) (hfirst : pieces.head? ≠ some [])
    (hlast : pieces.getLast? ≠ some []) : Trimmed ([separator].intercalate pieces) := by
  refine trimmed_iff.2 ⟨fun c hc => ?_, fun c hc => ?_⟩
  · rcases pieces with _ | ⟨first, rest⟩
    · simp at hc
    · rw [intercalate_cons, List.head?_append_of_ne_nil _ (by simpa using hfirst)] at hc
      exact (trimmed_iff.1 (h first (List.mem_cons_self ..))).1 c hc
  · rcases List.eq_nil_or_concat pieces with rfl | ⟨init, last, rfl⟩
    · simp at hc
    · rw [List.concat_eq_append] at h hlast hc
      rw [intercalate_concat, List.getLast?_append_of_ne_nil _ (by simpa using hlast)] at hc
      exact (trimmed_iff.1 (h last (by simp))).2 c hc

/-- The code points of the blanks. -/
def blankCodes : List Nat :=
  [0x9, 0xa, 0xb, 0xc, 0xd, 0x20, 0x85, 0xa0, 0x1680] ++ List.range' 0x2000 11 ++
    [0x2028, 0x2029, 0x202f, 0x205f, 0x3000]

theorem mem_blankCodes {c : Char} (h : isBlank c) : c.toNat ∈ blankCodes := by
  have hspace : c = ' ' ↔ c.toNat = 0x20 :=
    ⟨fun h => h ▸ rfl, fun h => Char.toNat_inj.1 h⟩
  have hlower : '\t' ≤ c ↔ 0x9 ≤ c.toNat := Iff.rfl
  have hupper : c ≤ '\r' ↔ c.toNat ≤ 0xd := Iff.rfl
  simp only [isBlank, Bool.or_eq_true, Bool.and_eq_true, beq_iff_eq, decide_eq_true_eq, hspace, hlower,
    hupper] at h
  simp only [blankCodes, List.mem_append, List.mem_range'_1, List.mem_cons, List.not_mem_nil, or_false]
  omega

end Text

namespace DocComment

open Text

/-! ## Names -/

theorem isNameChar_blankCodes : ∀ code ∈ blankCodes, isNameChar (Char.ofNat code) = false := by
  decide +kernel

theorem isBlank_of_isNameChar {c : Char} (h : isNameChar c) : isBlank c = false := by
  rw [Bool.eq_false_iff]
  intro hblank
  have hcode := isNameChar_blankCodes _ (mem_blankCodes hblank)
  rw [Char.ofNat_toNat, h] at hcode
  cases hcode

/-! ## The layout -/

/-- Whether a line starts with an at sign and a word. -/
def startsTag : List Char → Bool
  | '@' :: c :: _ => isWord c
  | _ => false

/-- A line that stands by itself. -/
def IsLine (line : List Char) : Prop := '\n' ∉ line ∧ Trimmed line

instance (line : List Char) : Decidable (IsLine line) :=
  inferInstanceAs (Decidable ('\n' ∉ line ∧ Trimmed line))

/-- The documentation of a parameter, in one or more chunks. -/
structure WrittenParameter where
  name : List Char
  /-- What stands between braces before the name. -/
  type : Option (List Char)
  first : List Char
  further : List (List Char)
  name_ne_nil : name ≠ []
  name_chars : ∀ c ∈ name, isNameChar c
  type_chars : ∀ text ∈ type, '\x7d' ∉ text ∧ '\n' ∉ text
  chunks : ∀ chunk ∈ first :: further, IsLine chunk ∧ chunk ≠ []
  further_text : ∀ chunk ∈ further, startsTag chunk = false

/-- What a doc comment is laid out from. -/
structure WrittenDoc where
  description : List (List Char)
  parameters : List WrittenParameter
  description_lines : ∀ line ∈ description, IsLine line ∧ startsTag line = false
  first_ne_nil : description.head? ≠ some []
  last_ne_nil : description.getLast? ≠ some []
  distinct : (parameters.map (·.name)).Nodup

namespace WrittenParameter

variable (parameter : WrittenParameter)

/-- The type in its braces, with a blank after it. -/
def typeText : List Char :=
  match parameter.type with
  | some text => '\x7b' :: text ++ ['\x7d', ' ']
  | none => []

/-- The tag, up to the end of the first chunk. -/
def tagLine : List Char :=
  '@' :: ("param".toList ++
    ' ' :: (parameter.typeText ++ parameter.name ++ " - ".toList ++ parameter.first))

/-- The tag with its first chunk, and the other chunks. -/
def lines : List (List Char) := parameter.tagLine :: parameter.further

/-- The chunks with a blank between any two. -/
def text : List Char := [' '].intercalate (parameter.first :: parameter.further)

end WrittenParameter

namespace WrittenDoc

variable (doc : WrittenDoc)

/-- The lines of the comment, without their stars. -/
def lines : List (List Char) := doc.description ++ doc.parameters.flatMap (·.lines)

/-- A line behind its star. -/
def starred (line : List Char) : List Char := " * ".toList ++ line

/-- The text of the comment: the second star, and each line on a line of its own behind a star. -/
def text : List Char :=
  (['*'] :: doc.lines.map starred).flatMap (· ++ ['\n']) ++ [' ']

/-- The comment. -/
def comment : Comment := ⟨true, String.ofList doc.text⟩

end WrittenDoc

/-! ## Lines -/

/-- A line is found again behind its star. -/
theorem content_starred {line : List Char} (h : Trimmed line) :
    content (WrittenDoc.starred line) = line := by
  cases hline : line with
  | nil => decide
  | cons c rest =>
    have hstar : Trimmed ('*' :: ' ' :: line) := by
      refine trimmed_iff.2 ⟨fun c hc => ?_, fun c hc => ?_⟩
      · cases hc
        decide
      · have hlast : ('*' :: ' ' :: line).getLast? = line.getLast? :=
          List.getLast?_append_of_ne_nil ['*', ' '] (by simp [hline])
        exact (trimmed_iff.1 h).2 c (hlast.symm.trans hc)
    have htrim : trim (WrittenDoc.starred line) = '*' :: ' ' :: line := trim_blank hstar
    rw [← hline, content, htrim]
    exact trim_blank h

theorem tagOf?_eq_none {line : List Char} (h : startsTag line = false) : tagOf? line = none := by
  unfold tagOf?
  split
  · rename_i rest
    cases rest with
    | nil => rfl
    | cons c rest =>
      have hc : isWord c = false := h
      simp [hc]
  · rfl

/-- A tag ends before a blank, and its text starts behind it. -/
theorem tagOf?_word (word : List Char) {rest : List Char} (hne : word ≠ [])
    (hword : ∀ c ∈ word, isWord c) (hrest : ∀ c, rest.head? = some c → isBlank c = false) :
    tagOf? ('@' :: (word ++ ' ' :: rest)) = some ⟨word, rest⟩ := by
  have hname : (word ++ ' ' :: rest).takeWhile isWord = word := by
    rw [List.takeWhile_append_of_pos hword, List.takeWhile_cons_of_neg (by decide), List.append_nil]
  have htext : trimLeft (' ' :: rest) = rest :=
    (trimLeft_blank rest).trans (trimLeft_eq_self_iff.2 hrest)
  simp only [tagOf?, hname, List.drop_left, htext]
  rw [if_neg (by simpa using hne)]

/-- Lines before the first tag are lines of the description. -/
theorem foldl_description {lines : List (List Char)} (h : ∀ line ∈ lines, startsTag line = false)
    (before : List (List Char)) :
    lines.foldl Reading.add ⟨before, []⟩ = ⟨lines.reverse ++ before, []⟩ := by
  induction lines generalizing before with
  | nil => rfl
  | cons line rest ih =>
    have hadd : Reading.add ⟨before, []⟩ line = ⟨line :: before, []⟩ := by
      rw [Reading.add, tagOf?_eq_none (h line (List.mem_cons_self ..))]
    rw [List.foldl_cons, hadd, ih fun other hother => h other (List.mem_cons_of_mem _ hother)]
    simp

/-- Lines after a tag go on with it. -/
theorem foldl_further {chunks : List (List Char)}
    (h : ∀ chunk ∈ chunks, startsTag chunk = false ∧ chunk ≠ []) (description : List (List Char))
    (name text : List Char) (before : List Tag) :
    chunks.foldl Reading.add ⟨description, ⟨name, text⟩ :: before⟩ =
      ⟨description, ⟨name, text ++ chunks.flatMap (' ' :: ·)⟩ :: before⟩ := by
  induction chunks generalizing text with
  | nil => simp
  | cons chunk rest ih =>
    obtain ⟨htext, hne⟩ := h chunk (List.mem_cons_self ..)
    have hadd : Reading.add ⟨description, ⟨name, text⟩ :: before⟩ chunk =
        ⟨description, ⟨name, text ++ ' ' :: chunk⟩ :: before⟩ := by
      rw [Reading.add, tagOf?_eq_none htext]
      simp [hne]
    rw [List.foldl_cons, hadd, ih fun other hother => h other (List.mem_cons_of_mem _ hother)]
    simp

/-! ## Parameters -/

namespace WrittenParameter

variable (parameter : WrittenParameter)

/-- The name, and what follows it up to the text. -/
theorem exists_name (rest : List Char) : ∃ c others, isNameChar c ∧
    parameter.name ++ rest = c :: others := by
  obtain ⟨c, others, hname⟩ := List.exists_cons_of_ne_nil parameter.name_ne_nil
  refine ⟨c, others ++ rest, parameter.name_chars c (by simp [hname]), ?_⟩
  rw [hname, List.cons_append]

/-- The text of the tag. -/
def tagText : List Char :=
  parameter.typeText ++ parameter.name ++ " - ".toList ++ parameter.text

/-- The tag that the lines are read as. -/
def tag : Tag := ⟨"param".toList, parameter.tagText⟩

theorem text_eq : parameter.text = parameter.first ++ parameter.further.flatMap (' ' :: ·) :=
  intercalate_cons ' ' _ _

theorem tagOf?_tagLine : tagOf? parameter.tagLine = some ⟨"param".toList,
    parameter.typeText ++ parameter.name ++ " - ".toList ++ parameter.first⟩ := by
  obtain ⟨c, others, hc, hname⟩ := parameter.exists_name (" - ".toList ++ parameter.first)
  refine tagOf?_word "param".toList (by decide) (List.all_eq_true.1 rfl) fun d hd => ?_
  rw [List.append_assoc, List.append_assoc, hname, typeText] at hd
  split at hd
  · cases hd
    decide
  · cases hd
    exact isBlank_of_isNameChar hc

/-- The lines of a parameter are read as one tag. -/
theorem foldl_lines (description : List (List Char)) (before : List Tag) :
    parameter.lines.foldl Reading.add ⟨description, before⟩ =
      ⟨description, parameter.tag :: before⟩ := by
  have hadd : Reading.add ⟨description, before⟩ parameter.tagLine = ⟨description,
      ⟨"param".toList, parameter.typeText ++ parameter.name ++ " - ".toList ++ parameter.first⟩ ::
        before⟩ := by
    rw [Reading.add, tagOf?_tagLine]
  have hfurther : ∀ chunk ∈ parameter.further, startsTag chunk = false ∧ chunk ≠ [] :=
    fun chunk hchunk => ⟨parameter.further_text chunk hchunk,
      (parameter.chunks chunk (List.mem_cons_of_mem _ hchunk)).2⟩
  rw [lines, List.foldl_cons, hadd, foldl_further hfurther, tag, tagText, text_eq,
    List.append_assoc _ parameter.first]

theorem foldl_flatMap_lines (parameters : List WrittenParameter) (description : List (List Char))
    (before : List Tag) : (parameters.flatMap lines).foldl Reading.add ⟨description, before⟩ =
      ⟨description, (parameters.map tag).reverse ++ before⟩ := by
  induction parameters generalizing before with
  | nil => rfl
  | cons parameter rest ih =>
    rw [List.flatMap_cons, List.foldl_append, foldl_lines, ih]
    simp

theorem isLine_of_mem_lines {line : List Char} (h : line ∈ parameter.lines) : IsLine line := by
  rcases List.mem_cons.1 h with rfl | h
  · obtain ⟨⟨hfirst, htrimmed⟩, hne⟩ := parameter.chunks parameter.first (List.mem_cons_self ..)
    have htype : '\n' ∉ parameter.typeText := by
      rw [typeText]
      split
      · rename_i text htype
        have hbreak := (parameter.type_chars text htype).2
        simp [hbreak]
      · simp
    have hname : '\n' ∉ parameter.name := fun hmem =>
      absurd (parameter.name_chars _ hmem) (by decide)
    refine ⟨?_, trimmed_iff.2 ⟨fun c hc => ?_, fun c hc => ?_⟩⟩
    · simp [tagLine, htype, hname, hfirst]
    · cases hc
      decide
    · have hlast : parameter.tagLine.getLast? = parameter.first.getLast? := by
        simp only [tagLine, ← List.cons_append, ← List.append_assoc]
        exact List.getLast?_append_of_ne_nil _ hne
      exact (trimmed_iff.1 htrimmed).2 c (hlast.symm.trans hc)
  · exact (parameter.chunks line (List.mem_cons_of_mem _ h)).1

theorem trimmed_text : Trimmed parameter.text := by
  refine trimmed_intercalate (fun chunk hchunk => (parameter.chunks chunk hchunk).1.2) ?_ ?_
  · intro hfirst
    exact (parameter.chunks [] (List.mem_of_mem_head? hfirst)).2 rfl
  · intro hlast
    exact (parameter.chunks [] (List.mem_of_getLast? hlast)).2 rfl

/-- A type in braces is passed over. -/
theorem dropType_typeText (rest : List Char) :
    dropType (parameter.typeText ++ (parameter.name ++ rest)) = parameter.name ++ rest := by
  obtain ⟨c, others, hc, hname⟩ := parameter.exists_name rest
  rw [hname, typeText]
  split
  · rename_i text htype
    have hclosing : ∀ c ∈ text, (c != '\x7d') = true := by
      intro c hmem
      have hne : c ≠ '\x7d' := fun h => (parameter.type_chars text htype).1 (h ▸ hmem)
      simpa using hne
    simp only [List.cons_append, List.append_assoc, dropType]
    rw [List.dropWhile_append_of_pos hclosing]
    exact (trimLeft_blank _).trans (trimLeft_cons (isBlank_of_isNameChar hc) others)
  · unfold dropType
    split
    · rename_i hcons
      cases hcons
      exact absurd hc (by decide)
    · rfl

/-- Name and text are found again in the text of the tag. -/
theorem parameterOf?_tagText : parameterOf? parameter.tagText = some (parameter.name, parameter.text) := by
  obtain ⟨c, others, hc, hcons⟩ := parameter.exists_name (' ' :: '-' :: ' ' :: parameter.text)
  have htype : dropType parameter.tagText = parameter.name ++ ' ' :: '-' :: ' ' :: parameter.text := by
    rw [tagText, List.append_assoc, List.append_assoc]
    exact parameter.dropType_typeText _
  have hbracket : (parameter.name ++ ' ' :: '-' :: ' ' :: parameter.text).head? ≠ some '[' := by
    rw [hcons]
    intro h
    cases h
    exact absurd hc (by decide)
  have hname : (parameter.name ++ ' ' :: '-' :: ' ' :: parameter.text).takeWhile isNameChar =
      parameter.name := by
    rw [List.takeWhile_append_of_pos parameter.name_chars, List.takeWhile_cons_of_neg (by decide),
      List.append_nil]
  have hdash : trimLeft ((' ' :: '-' :: ' ' :: parameter.text).dropWhile fun c => !isBlank c) =
      '-' :: ' ' :: parameter.text := by
    rw [List.dropWhile_cons_of_neg (by decide)]
    exact (trimLeft_blank _).trans (trimLeft_cons (by decide) _)
  have htext : trim (' ' :: parameter.text) = parameter.text := trim_blank parameter.trimmed_text
  simp only [parameterOf?, htype, beq_iff_eq, if_neg hbracket, hname, List.drop_left, hdash,
    List.head?_cons, if_true, List.drop_succ_cons, List.drop_zero, htext]
  rw [if_neg (by simpa using parameter.name_ne_nil)]

theorem parameter?_tag :
    parameter.tag.parameter? = some (String.ofList parameter.name, String.ofList parameter.text) := by
  have hname : parameterTags.contains (String.ofList "param".toList) = true := by decide
  rw [Tag.parameter?, tag, if_pos hname, parameterOf?_tagText]
  rfl

end WrittenParameter

/-! ## Comments -/

namespace WrittenDoc

variable (doc : WrittenDoc)

theorem joinLines_eq (lines : List (List Char)) : joinLines lines = ['\n'].intercalate lines := by
  induction lines with
  | nil => rfl
  | cons line rest ih =>
    cases rest with
    | nil => exact List.intercalate_singleton.symm
    | cons second others =>
      rw [joinLines, ih, List.intercalate_cons_cons]
      · simp
      · simp

/-- Each line of the comment stands by itself. -/
theorem isLine_of_mem_lines {line : List Char} (h : line ∈ doc.lines) : IsLine line := by
  rcases List.mem_append.1 h with h | h
  · exact (doc.description_lines line h).1
  · obtain ⟨parameter, -, hline⟩ := List.mem_flatMap.1 h
    exact parameter.isLine_of_mem_lines hline

theorem dropReturn_starred {line : List Char} (h : Trimmed line) :
    dropReturn (starred line) = starred line := by
  refine if_neg fun hlast => ?_
  have hreturn : (starred line).getLast? = some '\r' := by simpa using hlast
  cases hline : line with
  | nil =>
    rw [hline] at hreturn
    exact absurd hreturn (by decide)
  | cons c rest =>
    rw [starred, List.getLast?_append_of_ne_nil _ (by simp [hline])] at hreturn
    exact absurd ((trimmed_iff.1 h).2 _ hreturn) (by decide)

/-- The lines are found again in the text, between two empty ones. -/
theorem linesOf_text : (linesOf doc.text).map content = [] :: doc.lines ++ [[]] := by
  have hpieces : ∀ piece ∈ ['*'] :: doc.lines.map starred, '\n' ∉ piece := by
    intro piece hpiece
    rcases List.mem_cons.1 hpiece with rfl | hpiece
    · decide
    · obtain ⟨line, hline, rfl⟩ := List.mem_map.1 hpiece
      have hbreak := (doc.isLine_of_mem_lines hline).1
      simpa [starred] using hbreak
  have hsplit : splitOn '\n' doc.text = (['*'] :: doc.lines.map starred) ++ [[' ']] :=
    splitOn_flatMap_append hpieces [' ']
  have hlines : doc.lines.map (content ∘ dropReturn ∘ starred) = doc.lines := by
    refine (List.map_congr_left fun line hline => ?_).trans (List.map_id _)
    have htrimmed := (doc.isLine_of_mem_lines hline).2
    exact (congrArg content (dropReturn_starred htrimmed)).trans (content_starred htrimmed)
  have hopening : content (dropReturn ['*']) = [] := by decide
  have hclosing : content (dropReturn [' ']) = [] := by decide
  rw [linesOf, hsplit, List.getLast?_concat, if_neg (by decide)]
  simp [hopening, hclosing, hlines]

/-- The lines are read as the description and a tag for each parameter; the last line adds to the
description only where there is no tag. -/
theorem ofLines_lines : ∃ closing, (closing = [] ∨ closing = [[]]) ∧
    Reading.ofLines ([] :: doc.lines ++ [[]]) =
      ⟨closing ++ doc.description.reverse ++ [[]], (doc.parameters.map (·.tag)).reverse⟩ := by
  have hdescription : ∀ line ∈ [] :: doc.description, startsTag line = false := by
    intro line hline
    rcases List.mem_cons.1 hline with rfl | hline
    · rfl
    · exact (doc.description_lines line hline).2
  have hlines : Reading.ofLines ([] :: doc.lines ++ [[]]) = Reading.add
      ⟨doc.description.reverse ++ [[]], (doc.parameters.map (·.tag)).reverse⟩ [] := by
    rw [Reading.ofLines, List.foldl_append, lines, ← List.cons_append, List.foldl_append,
      foldl_description hdescription, WrittenParameter.foldl_flatMap_lines]
    simp
  rw [hlines]
  generalize (doc.parameters.map (·.tag)).reverse = tags
  cases tags with
  | nil => exact ⟨[[]], .inr rfl, rfl⟩
  | cons last before => exact ⟨[], .inl rfl, rfl⟩

/-- Empty lines around the description are trimmed off. -/
theorem trim_joinLines {closing : List (List Char)} (h : closing = [] ∨ closing = [[]]) :
    trim (joinLines ([] :: doc.description ++ closing)) = ['\n'].intercalate doc.description := by
  have hblank : ∀ c ∈ closing.flatMap ('\n' :: ·), isBlank c := by
    rcases h with rfl | rfl <;> exact List.all_eq_true.1 rfl
  have hdescription : Trimmed (['\n'].intercalate doc.description) :=
    trimmed_intercalate (fun line hline => (doc.description_lines line hline).1.2) doc.first_ne_nil
      doc.last_ne_nil
  have hjoined : joinLines ([] :: doc.description ++ closing) =
      doc.description.flatMap ('\n' :: ·) ++ closing.flatMap ('\n' :: ·) := by
    rw [joinLines_eq, List.cons_append, intercalate_cons, List.nil_append, List.flatMap_append]
  rw [hjoined]
  cases hcons : doc.description with
  | nil =>
    have hnil : Trimmed [] := rfl
    exact trim_between (List.forall_mem_nil _) hblank hnil
  | cons first rest =>
    have hbreak : ∀ c ∈ ['\n'], isBlank c := List.all_eq_true.1 rfl
    have hrest : (first :: rest).flatMap ('\n' :: ·) = ['\n'] ++ ['\n'].intercalate (first :: rest) := by
      rw [intercalate_cons]
      rfl
    rw [hrest]
    exact trim_between hbreak hblank (hcons ▸ hdescription)

/-- The comment is read back as it was laid out. -/
theorem ofText_text : ofText (String.ofList doc.text) =
    ⟨String.ofList (['\n'].intercalate doc.description), doc.parameters.map fun parameter =>
      (String.ofList parameter.name, String.ofList parameter.text)⟩ := by
  obtain ⟨closing, hclosing, hreading⟩ := doc.ofLines_lines
  have hdescription : (closing ++ doc.description.reverse ++ [[]]).reverse =
      [] :: doc.description ++ closing := by
    rcases hclosing with rfl | rfl <;> simp
  have hparameters : (doc.parameters.map (·.tag)).filterMap Tag.parameter? = doc.parameters.map
      fun parameter => (String.ofList parameter.name, String.ofList parameter.text) := by
    rw [List.filterMap_map, ← List.filterMap_eq_map]
    exact List.filterMap_congr fun parameter _ => parameter.parameter?_tag
  simp only [ofText, String.toList_ofList, linesOf_text, hreading, hdescription,
    doc.trim_joinLines hclosing, List.reverse_reverse, hparameters]

/-- The text of a parameter that is documented once. -/
theorem parameter_of_mem {read : DocComment} {name text : String}
    (hnodup : (read.parameters.map (·.1)).Nodup) (h : (name, text) ∈ read.parameters) :
    read.parameter name = text := by
  obtain ⟨before, after, hentries⟩ := List.append_of_mem (List.mem_reverse.2 h)
  have hkeys : (read.parameters.reverse.map (·.1)).Nodup := by
    rw [List.map_reverse]
    exact List.nodup_reverse.2 hnodup
  rw [hentries, List.map_append, List.map_cons, List.nodup_middle, List.nodup_cons] at hkeys
  have hbefore : ∀ entry ∈ before, (name != entry.1) = true := by
    intro entry hentry
    have hne : name ≠ entry.1 := by
      rintro rfl
      exact hkeys.1 (List.mem_append_left _ (List.mem_map.2 ⟨entry, hentry, rfl⟩))
    simpa using hne
  rw [parameter, List.lookup_eq_some_iff.2 ⟨before, after, hentries, hbefore⟩, Option.getD_some]

/-- The doc comment that stands last is read back as it was laid out: the description line by line,
for each parameter its chunks with a blank between any two, and no other parameters. -/
theorem ofComments_comment (before : List Comment) {after : List Comment}
    (h : ∀ comment ∈ after, isDoc comment = false) :
    let read := ofComments (before ++ doc.comment :: after)
    read.description = String.ofList (['\n'].intercalate doc.description) ∧
      read.parameters = doc.parameters.map (fun parameter =>
        (String.ofList parameter.name, String.ofList parameter.text)) ∧
      ∀ parameter ∈ doc.parameters,
        read.parameter (String.ofList parameter.name) = String.ofList parameter.text := by
  intro read
  have hdoc : isDoc doc.comment = true := by
    simp [isDoc, comment, text]
  have hread : read = ofText (String.ofList doc.text) := by
    have hafter : after.reverse.find? isDoc = none :=
      List.find?_eq_none.2 fun c hc => by simp [h c (List.mem_reverse.1 hc)]
    have hfind : (before ++ doc.comment :: after).reverse.find? isDoc = some doc.comment := by
      simp [hafter, hdoc]
    simp only [read, ofComments, hfind]
    rfl
  rw [hread, ofText_text]
  refine ⟨rfl, rfl, fun parameter hparameter => ?_⟩
  have hnodup : (doc.parameters.map fun parameter => String.ofList parameter.name).Nodup := by
    have hinjective : Function.Injective String.ofList := fun _ _ h => String.ofList_injective h
    have hdistinct := doc.distinct.map hinjective
    rwa [List.map_map] at hdistinct
  refine parameter_of_mem ?_ (List.mem_map_of_mem hparameter)
  rwa [List.map_map]

/-- Text that could be taken for markup: stars, dashes, brackets and at signs. -/
def shapeDoc : WrittenDoc where
  description := ["*Draws* a shape.".toList, [], "- @ twice its size".toList]
  parameters := [
    { name := "radius".toList
      type := some "number | [px]".toList
      first := "- Circle radius".toList
      further := ["* in pixels".toList, "\x7b@code px\x7d - [0]".toList]
      name_ne_nil := by decide
      name_chars := List.all_eq_true.1 rfl
      type_chars := by decide
      chunks := by decide
      further_text := by decide },
    { name := "$opts.label".toList
      type := none
      first := "@label".toList
      further := []
      name_ne_nil := by decide
      name_chars := List.all_eq_true.1 rfl
      type_chars := by decide
      chunks := by decide
      further_text := by decide }]
  description_lines := by decide
  first_ne_nil := by decide
  last_ne_nil := by decide
  distinct := by decide

example : shapeDoc.comment.text = "*\n * *Draws* a shape.\n * \n * - @ twice its size\n" ++
    " * @param \x7bnumber | [px]\x7d radius - - Circle radius\n * * in pixels\n" ++
    " * \x7b@code px\x7d - [0]\n * @param $opts.label - @label\n " := by decide +kernel

/-- The remarks after the doc comment do not matter, nor does a doc comment before it. -/
theorem ofComments_shapeDoc :
    (∀ comment ∈ [⟨false, "* a remark"⟩, ⟨true, " another "⟩], isDoc comment = false) ∧
      let read := ofComments ([⟨true, "* Old. @param x - y "⟩] ++
        shapeDoc.comment :: [⟨false, "* a remark"⟩, ⟨true, " another "⟩])
      read.description = "*Draws* a shape.\n\n- @ twice its size" ∧
        read.parameters = [("radius", "- Circle radius * in pixels \x7b@code px\x7d - [0]"),
          ("$opts.label", "@label")] := by
  have hafter : ∀ comment ∈ [⟨false, "* a remark"⟩, ⟨true, " another "⟩],
      isDoc comment = false := by
    decide
  obtain ⟨hdescription, hparameters, -⟩ :=
    shapeDoc.ofComments_comment [⟨true, "* Old. @param x - y "⟩] hafter
  exact ⟨hafter, hdescription.trans (by decide), hparameters.trans (by decide)⟩

end WrittenDoc

end DocComment

end ComponentSchema
