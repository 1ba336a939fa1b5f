import ComponentSchema.Numeral.Binary64
import ComponentSchema.Text.Classes

/-!
# Tokens

Source text is cut into tokens one at a time, from the front. `Token.next` skips blanks and comments
and reads one token; where the grammar knows better what a character stands for (a regular
expression, a template, the text of a JSX element), it reads again from the characters the token
started with.

`<` and `>` are always tokens of one character, since both close and open type arguments; operators
that start with them are put together by the grammar.

A comment documents the token after it if it starts a line, or if the token before it cannot be
followed by a remark of its own: `{`, `}`, `;`, a name or a literal can.
-/
namespace ComponentSchema.Syntax

open ComponentSchema.Text

/-- A comment, without its delimiters. -/
structure Comment where
  block : Bool
  text : String
  deriving DecidableEq, Repr, Inhabited

/-- The value of a string literal. -/
structure StringLiteral where
  /-- The text, each lone surrogate replaced by `U+FFFD`. -/
  lossy : String
  /-- The text, if no surrogate stands alone. -/
  exact : Option String
  deriving DecidableEq, Repr, Inhabited

namespace StringLiteral

/-- Joins surrogate pairs; what remains of surrogates stands alone. -/
def joinPairs : List Nat → List Nat
  | high :: low :: rest =>
    if 0xd800 ≤ high && high < 0xdc00 && 0xdc00 ≤ low && low < 0xe000 then
      (0x10000 + (high - 0xd800) * 0x400 + (low - 0xdc00)) :: joinPairs rest
    else high :: joinPairs (low :: rest)
  | codes => codes

/-- The literal with the given code points, which may be surrogates. -/
def ofCodes (codes : List Nat) : StringLiteral :=
  let joined := joinPairs codes
  let isScalar (code : Nat) : Bool := code < 0xd800 || 0xe000 ≤ code
  let lossy := String.ofList
    (joined.map fun code => if isScalar code then Char.ofNat code else Char.ofNat 0xfffd)
  ⟨lossy, if joined.all isScalar then some lossy else none⟩

end StringLiteral

inductive TokenKind where
  /-- A name or keyword; `plain` if it is written without escapes. -/
  | word (name : String) (plain : Bool)
  /-- `#name`. -/
  | privateName
  | number (value : Binary64)
  | bigint
  | string (value : StringLiteral)
  /-- An operator or a bracket. -/
  | mark (text : String)
  | endOfText
  /-- No token starts here. -/
  | unreadable
  deriving DecidableEq, Repr, Inhabited

/-- A token in its place. -/
structure Token where
  kind : TokenKind
  /-- A line ended since the token before. -/
  newline : Bool
  /-- The comments that document what starts with this token. -/
  leading : List Comment
  /-- The text from the first character of the token on. -/
  origin : List Char
  deriving Repr, Inhabited

/-! ## Blanks and comments -/

/-- What was skipped before a token. -/
structure Trivia where
  newline : Bool
  /-- The documenting comments, last first. -/
  comments : List Comment
  deriving Repr, Inhabited

/-- Where in the skipped text the reader is. -/
inductive TriviaMode where
  | blank
  /-- In a comment to the end of the line; its characters, last first. -/
  | line (documents : Bool) (text : List Char)
  /-- In a block comment; its characters, last first. -/
  | block (documents : Bool) (text : List Char)
  deriving Repr, Inhabited

/-- The comment is kept if it documents the token to come. -/
def Trivia.add (trivia : Trivia) (documents block : Bool) (text : List Char) : Trivia :=
  if documents then
    { trivia with comments := ⟨block, String.ofList text.reverse⟩ :: trivia.comments }
  else trivia

/-- Whether a semicolon is the next thing that is not blank. -/
def semicolonFollows (text : List Char) : Bool :=
  (text.dropWhile fun c => isSpace c || isLineEnd c).head? == some ';'

/-- Skips blanks and comments; `remark` tells whether the token before may be followed by a remark.
There is no answer if a block comment is not closed. -/
def skipTrivia (remark : Bool) : TriviaMode → Trivia → List Char → Option (Trivia × List Char)
  | .blank, trivia, '/' :: '/' :: rest =>
    skipTrivia remark (.line (trivia.newline || !remark) []) trivia rest
  | .blank, trivia, '/' :: '*' :: rest =>
    skipTrivia remark (.block (trivia.newline || !remark) []) trivia rest
  | .blank, trivia, c :: rest =>
    if isLineEnd c then skipTrivia remark .blank { trivia with newline := true } rest
    else if isSpace c then skipTrivia remark .blank trivia rest
    else some (trivia, c :: rest)
  | .blank, trivia, [] => some (trivia, [])
  | .line documents text, trivia, c :: rest =>
    if isLineEnd c then
      skipTrivia remark .blank { trivia.add documents false text with newline := true } rest
    else skipTrivia remark (.line documents (c :: text)) trivia rest
  | .line documents text, trivia, [] => some (trivia.add documents false text, [])
  | .block documents text, trivia, '*' :: '/' :: rest =>
    skipTrivia remark .blank (trivia.add (documents && !semicolonFollows rest) true text) rest
  | .block documents text, trivia, c :: rest =>
    skipTrivia remark (.block documents (c :: text))
      { trivia with newline := trivia.newline || isLineEnd c } rest
  | .block .., _, [] => none

/-! ## Words -/

/-- The value of a hexadecimal digit. -/
def hexDigit? (c : Char) : Option Nat :=
  if c.isDigit then some (c.toNat - 48)
  else if 'a' ≤ c && c ≤ 'f' then some (c.toNat - 87)
  else if 'A' ≤ c && c ≤ 'F' then some (c.toNat - 55)
  else none

/-- The number that hexadecimal digits stand for. -/
def hexValue? (digits : List Char) : Option Nat :=
  digits.foldlM (fun total c => (hexDigit? c).map (total * 16 + ·)) 0

/-- The code point of a Unicode escape after its `u`, and the text after it. -/
def unicodeEscape? : List Char → Option (Nat × List Char)
  | '{' :: rest =>
    let digits := rest.takeWhile (· != '}')
    match rest.drop digits.length with
    | _ :: after =>
      if digits.isEmpty || digits.length > 8 then none
      else (hexValue? digits).bind fun code => if code < 0x110000 then some (code, after) else none
    | [] => none
  | a :: b :: c :: d :: rest => (hexValue? [a, b, c, d]).map (·, rest)
  | _ => none

/-- Reads the characters of a word. The answer holds them last first, whether none was an escape,
and the text after the word. -/
def scanWord : Nat → List Char → Bool → List Char → Option (List Char × Bool × List Char)
  | 0, read, plain, text => some (read, plain, text)
  | steps + 1, read, plain, text =>
    match text with
    | '\\' :: 'u' :: rest =>
      match unicodeEscape? rest with
      | some (code, after) =>
        if isIdentifierPart (Char.ofNat code) then
          scanWord steps (Char.ofNat code :: read) false after
        else none
      | none => none
    | '\\' :: _ => none
    | c :: rest =>
      if isIdentifierPart c then scanWord steps (c :: read) plain rest else some (read, plain, text)
    | [] => some (read, plain, [])

/-- The token of a word at the start of a text. -/
def wordToken (text : List Char) : TokenKind × List Char :=
  match scanWord text.length [] true text with
  | some (read, plain, rest) =>
    if read.isEmpty || !(read.getLast?.any isIdentifierStart) then (.unreadable, text)
    else (.word (String.ofList read.reverse) plain, rest)
  | none => (.unreadable, text)

/-! ## Numbers -/

/-- The digits at the start of a text, separators left out, and the text after them. -/
def scanDigits (isDigit : Char → Bool) (text : List Char) : List Char × List Char :=
  ((text.takeWhile fun c => isDigit c || c == '_').filter (· != '_'),
    text.dropWhile fun c => isDigit c || c == '_')

/-- The number that decimal digits stand for. -/
def decimalValue (digits : List Char) : Nat :=
  digits.foldl (fun total c => total * 10 + (c.toNat - 48)) 0

/-- The exponent at the start of a text; `none` if an `e` has no digits after it. -/
def scanExponent (text : List Char) : Option (Int × List Char) :=
  match text with
  | e :: rest =>
    if e == 'e' || e == 'E' then
      let (negative, rest) :=
        match rest with
        | '-' :: after => (true, after)
        | '+' :: after => (false, after)
        | _ => (false, rest)
      let (digits, after) := scanDigits Char.isDigit rest
      if digits.isEmpty then none
      else
        let value : Int := decimalValue digits
        some (if negative then -value else value, after)
    else some (0, text)
  | [] => some (0, [])

/-- The number in a radix that is written with a letter. -/
def scanRadix (radix : Nat) (text : List Char) : TokenKind × List Char :=
  let isDigit (c : Char) : Bool := (hexDigit? c).any (· < radix)
  let (digits, rest) := scanDigits isDigit text
  if digits.isEmpty then (.unreadable, text)
  else
    match rest with
    | 'n' :: after => (.bigint, after)
    | _ => (.number (.ofDigits radix (digits.filterMap hexDigit?)), rest)

/-- The decimal number at the start of a text. -/
def scanDecimal (text : List Char) : TokenKind × List Char :=
  let (whole, rest) := scanDigits Char.isDigit text
  match rest with
  | 'n' :: after => (.bigint, after)
  | _ =>
    let (fraction, rest) :=
      match rest with
      | '.' :: after => scanDigits Char.isDigit after
      | _ => ([], rest)
    match scanExponent rest with
    | none => (.unreadable, text)
    | some (exponent, rest) =>
      let digits := whole ++ fraction
      (.number (.ofDecimal (decimalValue digits) digits.length (exponent - fraction.length)), rest)

/-- The token of a number at the start of a text. A number may not run into a name. -/
def numberToken (text : List Char) : TokenKind × List Char :=
  let (kind, rest) :=
    match text with
    | '0' :: x :: rest =>
      if x == 'x' || x == 'X' then scanRadix 16 rest
      else if x == 'o' || x == 'O' then scanRadix 8 rest
      else if x == 'b' || x == 'B' then scanRadix 2 rest
      else if x.isDigit && (text.takeWhile Char.isDigit).all (· < '8') then
        (.number (.ofDigits 8 ((text.takeWhile Char.isDigit).filterMap hexDigit?)),
          text.dropWhile Char.isDigit)
      else scanDecimal text
    | _ => scanDecimal text
  if rest.head?.any isIdentifierStart then (.unreadable, text) else (kind, rest)

/-! ## Strings, templates and regular expressions -/

/-- The characters up to the closing quote, last first, and the text after it. -/
def scanQuoted (quote : Char) : List Char → List Char → Option (List Char × List Char)
  | read, '\\' :: '\r' :: '\n' :: rest => scanQuoted quote ('\n' :: '\\' :: read) rest
  | read, '\\' :: c :: rest => scanQuoted quote (c :: '\\' :: read) rest
  | read, c :: rest =>
    if c == quote then some (read, rest)
    else if c == '\n' || c == '\r' then none
    else scanQuoted quote (c :: read) rest
  | _, [] => none

/-- The octal digits, at most `count`, at the start of a text and the text after them. -/
def scanOctal : Nat → Nat → List Char → Nat × List Char
  | 0, total, text => (total, text)
  | _ + 1, total, [] => (total, [])
  | count + 1, total, c :: rest =>
    if '0' ≤ c && c ≤ '7' && total * 8 + (c.toNat - 48) < 256 then
      scanOctal count (total * 8 + (c.toNat - 48)) rest
    else (total, c :: rest)

/-- The code points that the characters between quotes stand for. -/
def decodeEscapes : Nat → List Char → Option (List Nat)
  | 0, _ => some []
  | _ + 1, [] => some []
  | steps + 1, '\\' :: c :: rest =>
    let single (code : Nat) : Option (List Nat) := (decodeEscapes steps rest).map (code :: ·)
    if c == 'n' then single 10
    else if c == 't' then single 9
    else if c == 'r' then single 13
    else if c == 'b' then single 8
    else if c == 'v' then single 11
    else if c == 'f' then single 12
    else if isLineEnd c then decodeEscapes steps rest
    else if c == 'x' then
      match rest with
      | a :: b :: after =>
        (hexValue? [a, b]).bind fun code => (decodeEscapes steps after).map (code :: ·)
      | _ => none
    else if c == 'u' then
      (unicodeEscape? rest).bind fun (code, after) => (decodeEscapes steps after).map (code :: ·)
    else if '0' ≤ c && c ≤ '7' then
      let (code, after) := scanOctal 3 0 (c :: rest)
      (decodeEscapes steps after).map (code :: ·)
    else single c.toNat
  | steps + 1, c :: rest => (decodeEscapes steps rest).map (c.toNat :: ·)

/-- The token of a string at the start of the text after its opening quote. -/
def stringToken (quote : Char) (text : List Char) : TokenKind × List Char :=
  match scanQuoted quote [] text with
  | none => (.unreadable, text)
  | some (read, rest) =>
    match decodeEscapes read.length read.reverse with
    | none => (.unreadable, text)
    | some codes => (.string (.ofCodes codes), rest)

/-- The text after a chunk of a template, and whether the chunk ends the template; otherwise `${`
ended it. -/
def scanTemplate : List Char → Option (Bool × List Char)
  | '\\' :: _ :: rest => scanTemplate rest
  | '\x60' :: rest => some (true, rest)
  | '$' :: '{' :: rest => some (false, rest)
  | _ :: rest => scanTemplate rest
  | [] => none

/-- Whether each escape in a chunk of a template stands for a character; octal escapes do not. -/
def escapesStandForCharacters : List Char → Bool
  | '\\' :: 'x' :: rest =>
    2 ≤ rest.length && (hexValue? (rest.take 2)).isSome && escapesStandForCharacters rest
  | '\\' :: 'u' :: rest => (unicodeEscape? rest).isSome && escapesStandForCharacters rest
  | '\\' :: '0' :: rest => !rest.head?.any Char.isDigit && escapesStandForCharacters rest
  | '\\' :: c :: rest => !('1' ≤ c && c ≤ '7') && escapesStandForCharacters rest
  | _ :: rest => escapesStandForCharacters rest
  | [] => true

/-- The text after the closing slash of a regular expression; a slash in brackets does not close
it. -/
def scanRegex (bracketed : Bool) : List Char → Option (List Char)
  | '\\' :: c :: rest => if isLineEnd c then none else scanRegex bracketed rest
  | c :: rest =>
    if isLineEnd c then none
    else if c == '[' then scanRegex true rest
    else if c == ']' then scanRegex false rest
    else if c == '/' && !bracketed then some rest
    else scanRegex bracketed rest
  | [] => none

/-! ## Operators -/

/-- Operators and brackets, longer ones first. -/
def marks : List (List Char) := [
  "...", "===", "!==", "**=", "&&=", "||=", "??=", "=>", "==", "!=", "++", "--", "+=", "-=", "*=",
  "/=", "%=", "&=", "|=", "^=", "&&", "||", "??", "**", "?.", "\x7b", "\x7d", "(", ")", "[", "]", ";", ",",
  "~", ":", ".", "?", "=", "!", "+", "-", "*", "/", "%", "&", "|", "^", "<", ">", "@", "`"].map
  String.toList

/-- The token of an operator at the start of a text. `?.` before a digit is `?`. -/
def markToken (text : List Char) : TokenKind × List Char :=
  match marks.find? (·.isPrefixOf text) with
  | some ['?', '.'] =>
    if (text.drop 2).head?.any Char.isDigit then (.mark "?", text.drop 1)
    else (.mark "?.", text.drop 2)
  | some mark => (.mark (String.ofList mark), text.drop mark.length)
  | none => (.unreadable, text)

/-! ## The next token -/

/-- Reads the token at the start of a text that starts with neither a blank nor a comment. -/
def readToken (text : List Char) : TokenKind × List Char :=
  match text with
  | [] => (.endOfText, [])
  | c :: rest =>
    if isIdentifierStart c || c == '\\' then wordToken text
    else if c.isDigit || (c == '.' && rest.head?.any Char.isDigit) then numberToken text
    else if c == '\x22' || c == '\x27' then stringToken c rest
    else if c == '#' then
      match wordToken rest with
      | (.word .., after) => (.privateName, after)
      | _ => (.unreadable, text)
    else markToken text

/-- Words that are keywords everywhere. -/
def reservedWords : List String := [
  "break", "case", "catch", "class", "const", "continue", "debugger", "default", "delete", "do",
  "else", "enum", "export", "extends", "false", "finally", "for", "function", "if", "import", "in",
  "instanceof", "new", "null", "return", "super", "switch", "this", "throw", "true", "try", "typeof",
  "var", "void", "while", "with"]

/-- Words that are keywords of modules only: where a keyword may not stand, they are names all the
same. -/
def moduleWords : List String := [
  "await", "implements", "interface", "package", "private", "protected", "public", "static", "yield"]

/-- Whether a comment on the same line is a remark on the token before it; after a reserved word or
an operator it documents what follows. -/
def TokenKind.takesRemark : TokenKind → Bool
  | .word name _ => !reservedWords.contains name
  | .number _ | .bigint | .string _ => true
  | .mark text => text == "\x7b" || text == "\x7d" || text == ";"
  | .privateName | .endOfText | .unreadable => false

/-- The next token after one of kind `before`, and the text after it. `newline` is set at the start
of a text. -/
def Token.next (before : TokenKind) (newline : Bool) (text : List Char) : Token × List Char :=
  match skipTrivia before.takesRemark .blank ⟨newline, []⟩ text with
  | none => (⟨.unreadable, newline, [], text⟩, text)
  | some (trivia, rest) =>
    let (kind, after) := readToken rest
    (⟨kind, trivia.newline, trivia.comments.reverse, rest⟩, after)

end ComponentSchema.Syntax
