import ComponentSchema.Json.Value

/-!
# JSON text

A value is written over several lines: every item of an array and every member of an object stands
on a line of its own, four blanks further in than the brackets around it. Empty brackets stay
together.

In a string, quotes, backslashes and control characters are escaped, and nothing else is.
-/
namespace ComponentSchema.Json

/-- The lowercase hexadecimal digit of a number below sixteen. -/
def hexDigit (value : Nat) : Char := Nat.digitChar value

/-- A character as it stands between quotes. -/
def escape (c : Char) : List Char :=
  if c == '\x22' then ['\\', '\x22']
  else if c == '\\' then ['\\', '\\']
  else if c == '\x08' then ['\\', 'b']
  else if c == '\x0c' then ['\\', 'f']
  else if c == '\n' then ['\\', 'n']
  else if c == '\r' then ['\\', 'r']
  else if c == '\t' then ['\\', 't']
  else if c < ' ' then ['\\', 'u', '0', '0', hexDigit (c.toNat / 16), hexDigit (c.toNat % 16)]
  else [c]

/-- A string between quotes. -/
def quoted (text : String) : List Char :=
  '\x22' :: (text.toList.flatMap escape ++ ['\x22'])

/-- The end of a line and the blanks that start the next. -/
def lineBreak (level : Nat) : List Char := '\n' :: List.replicate (4 * level) ' '

/-- Pieces on lines of their own, with commas between them. -/
def onLines (level : Nat) : List (List Char) → List Char
  | [] => []
  | [last] => lineBreak level ++ last
  | piece :: rest => lineBreak level ++ piece ++ ',' :: onLines level rest

/-- Pieces between brackets. -/
def bracketed (opening closing : Char) (level : Nat) (pieces : List (List Char)) : List Char :=
  if pieces.isEmpty then [opening, closing]
  else opening :: (onLines (level + 1) pieces ++ lineBreak level ++ [closing])

mutual

/-- A value whose brackets stand `level` levels deep. -/
def written (level : Nat) : Json → List Char
  | null => "null".toList
  | bool true => "true".toList
  | bool false => "false".toList
  | string text => quoted text
  | array items => bracketed '[' ']' level (writtenItems (level + 1) items)
  | object members => bracketed '\x7b' '\x7d' level (writtenMembers (level + 1) members)

/-- The items of an array. -/
def writtenItems (level : Nat) : List Json → List (List Char)
  | [] => []
  | item :: rest => written level item :: writtenItems level rest

/-- The members of an object. -/
def writtenMembers (level : Nat) : List (String × Json) → List (List Char)
  | [] => []
  | (key, value) :: rest =>
    (quoted key ++ ':' :: ' ' :: written level value) :: writtenMembers level rest

end

/-- The text of a value. -/
def text (value : Json) : String := String.ofList (written 0 value)

end ComponentSchema.Json
