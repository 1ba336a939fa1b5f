import ComponentSchema.Syntax.Token

/-!
# Doc comments

A doc comment is a block comment that starts with a second star. Its lines, each without blanks at
its ends and without the star it starts with, are a description followed by tags; a line after a tag
goes on with that tag.

The definitions model the doc comment reader of the binder; `ofComments` mirrors its `parse_jsdoc`.
-/
namespace ComponentSchema

open Syntax Text

/-- The description of a doc comment, and the text of each parameter it documents. Of two texts for
one parameter the later one counts. -/
structure DocComment where
  description : String
  parameters : List (String × String)
  deriving DecidableEq, Repr, Inhabited

namespace DocComment

/-- Nothing is documented. -/
def blank : DocComment := ⟨"", []⟩

/-- The text of a parameter; empty if it is not documented. -/
def parameter (doc : DocComment) (name : String) : String :=
  (doc.parameters.reverse.lookup name).getD ""

/-! ## Lines -/

/-- The text without a carriage return at its end. -/
def dropReturn (line : List Char) : List Char :=
  if line.getLast? == some '\r' then line.dropLast else line

/-- The lines of a text. What follows the last line feed is a line only if it is not empty. -/
def linesOf (text : List Char) : List (List Char) :=
  let pieces := splitOn '\n' text
  (if pieces.getLast? == some [] then pieces.dropLast else pieces).map dropReturn

/-- A line of a comment without blanks at its ends and without the star it starts with. -/
def content (line : List Char) : List Char :=
  match trim line with
  | '*' :: rest => trim rest
  | line => line

/-! ## Tags -/

/-- `@name text`. -/
structure Tag where
  name : List Char
  text : List Char
  deriving DecidableEq, Repr, Inhabited

/-- The tag that a line starts. -/
def tagOf? : List Char → Option Tag
  | '@' :: rest =>
    let name := rest.takeWhile isWord
    if name.isEmpty then none else some ⟨name, trimLeft (rest.drop name.length)⟩
  | _ => none

/-- The lines read so far: the description and the tags, each last first. -/
structure Reading where
  description : List (List Char)
  tags : List Tag
  deriving Repr, Inhabited

/-- Reads one line. -/
def Reading.add (reading : Reading) (line : List Char) : Reading :=
  match tagOf? line, reading.tags with
  | some tag, tags => { reading with tags := tag :: tags }
  | none, last :: before =>
    if line.isEmpty then reading
    else { reading with tags := { last with text := last.text ++ ' ' :: line } :: before }
  | none, [] => { reading with description := line :: reading.description }

/-- The parts of a line list. -/
def Reading.ofLines (lines : List (List Char)) : Reading :=
  lines.foldl Reading.add ⟨[], []⟩

/-! ## Parameters -/

/-- Tags that document a parameter. -/
def parameterTags : List String := ["param", "arg", "argument"]

/-- A character of a documented parameter's name. -/
def isNameChar (c : Char) : Bool := isWord c || c == '$' || c == '.'

/-- The text after a type in braces and the blanks behind it. -/
def dropType : List Char → List Char
  | '\x7b' :: rest =>
    match rest.dropWhile (· != '\x7d') with
    | _ :: after => trimLeft after
    | [] => '\x7b' :: rest
  | text => text

/-- The name and text in the text of a parameter's tag. A type in braces, an opening bracket,
whatever else runs on after the name, and a dash are passed over. -/
def parameterOf? (text : List Char) : Option (List Char × List Char) :=
  let text := dropType text
  let text := if text.head? == some '[' then text.drop 1 else text
  let name := text.takeWhile isNameChar
  if name.isEmpty then none
  else
    let after := trimLeft ((text.drop name.length).dropWhile fun c => !isBlank c)
    let after := if after.head? == some '-' then after.drop 1 else after
    some (name, trim after)

/-- The name and text of a tag that documents a parameter. -/
def Tag.parameter? (tag : Tag) : Option (String × String) :=
  if parameterTags.contains (String.ofList tag.name) then
    (parameterOf? tag.text).map fun (name, text) => (String.ofList name, String.ofList text)
  else none

/-! ## Comments -/

/-- Lines as one text, with line feeds between them. -/
def joinLines : List (List Char) → List Char
  | [] => []
  | [line] => line
  | line :: rest => line ++ '\n' :: joinLines rest

/-- The documentation in the text of a doc comment. -/
def ofText (text : String) : DocComment :=
  let reading := Reading.ofLines ((linesOf text.toList).map content)
  ⟨String.ofList (trim (joinLines reading.description.reverse)),
    reading.tags.reverse.filterMap Tag.parameter?⟩

/-- Whether a comment is a doc comment. -/
def isDoc (comment : Comment) : Bool :=
  comment.block && comment.text.toList.head? == some '*'

/-- The documentation in the last doc comment of a list. -/
def ofComments (comments : List Comment) : DocComment :=
  match comments.reverse.find? isDoc with
  | some comment => ofText comment.text
  | none => blank

end DocComment

end ComponentSchema
