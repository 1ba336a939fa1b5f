import ComponentSchema.Text.Category

/-!
# Words, identifiers and blanks

The character classes that texts are cut by. Each extends its ASCII part by the characters that the
Unicode standard puts in the same class.
-/
namespace ComponentSchema.Text

/-- White space in the sense of the Unicode property of that name; trimming removes these. -/
def isBlank (c : Char) : Bool :=
  c == ' ' || ('\t' ≤ c && c ≤ '\r') || c.toNat == 0x85 || c.toNat == 0xa0 || c.toNat == 0x1680 ||
    (0x2000 ≤ c.toNat && c.toNat ≤ 0x200a) || c.toNat == 0x2028 || c.toNat == 0x2029 ||
    c.toNat == 0x202f || c.toNat == 0x205f || c.toNat == 0x3000

/-- A character that ends a line of source text. -/
def isLineEnd (c : Char) : Bool :=
  c == '\n' || c == '\r' || c.toNat == 0x2028 || c.toNat == 0x2029

/-- A character that separates tokens without ending the line; the byte order mark is one. -/
def isSpace (c : Char) : Bool :=
  c == ' ' || c == '\t' || c.toNat == 0x0b || c.toNat == 0x0c || c.toNat == 0xfeff ||
    (0x80 ≤ c.toNat && isBlank c && !isLineEnd c && c.toNat != 0x85)

/-- A word character: letters, marks, digits and connectors, circled letters, and the two
joiners. -/
def isWord (c : Char) : Bool :=
  c.isAlphanum || c == '_' ||
    (0x80 ≤ c.toNat &&
      (isForeignLetter c || isMark c || isForeignDigit c || isForeignConnector c ||
        c.toNat == 0x200c || c.toNat == 0x200d ||
        (0x24b6 ≤ c.toNat && c.toNat ≤ 0x24e9) || (0x1f130 ≤ c.toNat && c.toNat ≤ 0x1f149) ||
        (0x1f150 ≤ c.toNat && c.toNat ≤ 0x1f169) || (0x1f170 ≤ c.toNat && c.toNat ≤ 0x1f189)))

/-- A character that an identifier starts with. -/
def isIdentifierStart (c : Char) : Bool :=
  c.isAlpha || c == '_' || c == '$' ||
    (0x80 ≤ c.toNat &&
      ((isForeignLetter c && c.toNat != 0x2e2f) ||
        c.toNat == 0x2118 || c.toNat == 0x212e || c.toNat == 0x309b || c.toNat == 0x309c ||
        c.toNat == 0x1885 || c.toNat == 0x1886))

/-- A character that an identifier goes on with. -/
def isIdentifierPart (c : Char) : Bool :=
  isIdentifierStart c || c.isDigit ||
    (0x80 ≤ c.toNat &&
      (isMark c || isForeignDigit c || isForeignConnector c || c.toNat == 0x200c ||
        c.toNat == 0x200d || c.toNat == 0xb7 || c.toNat == 0x387 ||
        (0x1369 ≤ c.toNat && c.toNat ≤ 0x1371) || c.toNat == 0x19da || c.toNat == 0x30fb ||
        c.toNat == 0xff65))

/-- The text without the blanks at its start. -/
def trimLeft (text : List Char) : List Char := text.dropWhile isBlank

/-- The text without the blanks at its end. -/
def trimRight (text : List Char) : List Char := (text.reverse.dropWhile isBlank).reverse

/-- The text without the blanks at both ends. -/
def trim (text : List Char) : List Char := trimRight (trimLeft text)

/-- The pieces of a text between separators; there is always one more than there are separators. -/
def splitOn (separator : Char) : List Char → List (List Char)
  | [] => [[]]
  | c :: rest =>
    if c == separator then [] :: splitOn separator rest
    else
      match splitOn separator rest with
      | [] => [[c]]
      | first :: others => (c :: first) :: others

end ComponentSchema.Text
