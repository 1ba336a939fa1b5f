import ComponentSchema.Syntax.Token

/-!
# Reading by recursive descent

A reader of type `Parse α` looks at the token under the cursor, moves the cursor forward, and yields
an `α` or fails. A reader that was only tried leaves the cursor where it was if it fails.
-/
namespace ComponentSchema.Syntax

/-- Why a text is not in the language: what was expected, and how much of the text was left. -/
structure SyntaxError where
  expected : String
  remaining : Nat
  deriving DecidableEq, Repr, Inhabited

/-- A place between two tokens. -/
structure Cursor where
  /-- The token to be read next. -/
  token : Token
  /-- The text after that token. -/
  rest : List Char
  /-- The text after the token before. -/
  behind : List Char
  deriving Repr, Inhabited

abbrev Parse := StateT Cursor (Except SyntaxError)

namespace Cursor

/-- The cursor at the start of a text. -/
def start (text : List Char) : Cursor :=
  let (token, rest) := Token.next .endOfText true text
  ⟨token, rest, text⟩

/-- The cursor at the start of a text that follows a token of the given kind. -/
def following (kind : TokenKind) (text : List Char) : Cursor :=
  let (token, rest) := Token.next kind false text
  ⟨token, rest, text⟩

end Cursor

namespace Parse

variable {α : Type}

/-- The text is not what was expected. -/
def fail (expected : String) : Parse α := do
  let cursor ← get
  throw ⟨expected, cursor.token.origin.length⟩

/-- The token to be read next. -/
def token : Parse Token := return (← get).token

/-- The kind of the token to be read next. -/
def kind : Parse TokenKind := return (← get).token.kind

/-- Moves past the token. -/
def advance : Parse Unit :=
  modify fun cursor => Cursor.following cursor.token.kind cursor.rest

/-- Moves past the first `count` characters of the token's text, read as a token of that kind. -/
def advancePast (kind : TokenKind) (count : Nat) : Parse Unit :=
  modify fun cursor => Cursor.following kind (cursor.token.origin.drop count)

/-- Whether the next token is a given operator or bracket. -/
def atMark (text : String) : Parse Bool := return (← kind) == .mark text

/-- Whether the next token is a given word. -/
def atWord (name : String) : Parse Bool := return (← kind) == .word name true

/-- Whether a line ends before the next token. -/
def atNewline : Parse Bool := return (← token).newline

/-- Moves past an operator or bracket, if it is next. -/
def eatMark (text : String) : Parse Bool := do
  if ← atMark text then advance; pure true else pure false

/-- Moves past a word, if it is next. -/
def eatWord (name : String) : Parse Bool := do
  if ← atWord name then advance; pure true else pure false

/-- Moves past an operator or bracket that has to be there. -/
def expectMark (text : String) : Parse Unit := do
  if ← eatMark text then pure () else fail text

/-- Moves past a word that has to be there. -/
def expectWord (name : String) : Parse Unit := do
  if ← eatWord name then pure () else fail name

/-- The result of a reader, or nothing read. -/
def tried (reader : Parse α) : Parse (Option α) := fun cursor =>
  match reader cursor with
  | .ok (result, after) => .ok (some result, after)
  | .error _ => .ok (none, cursor)

/-- Whether a reader would say yes; nothing is read. -/
def ahead (reader : Parse Bool) : Parse Bool := fun cursor =>
  match reader cursor with
  | .ok (result, _) => .ok (result, cursor)
  | .error _ => .ok (false, cursor)

/-- What a reader yields until it has no more, at most `bound` times. -/
def many (step : Parse (Option α)) : Nat → Parse (List α)
  | 0 => fail "fewer parts"
  | bound + 1 => do
    match ← step with
    | none => pure []
    | some first => return first :: (← many step bound)

/-- Items with commas between them up to a closing bracket, which is read too. -/
def commaList (close : String) (item : Parse α) (bound : Nat) : Parse (List α) := do
  let items ← many (do
    if ← atMark close then pure none
    else
      let found ← item
      if !(← atMark close) then expectMark ","
      pure (some found)) bound
  expectMark close
  pure items

/-- Items with a separator between them, at least one. -/
def separated (mark : String) (item : Parse α) (bound : Nat) : Parse (List α) := do
  let first ← item
  let others ← many (do if ← eatMark mark then some <$> item else pure none) bound
  pure (first :: others)

/-- The end of a statement: a semicolon, or a place where one may be left out. -/
def endStatement : Parse Unit := do
  if ← eatMark ";" then pure ()
  else if (← atMark "\x7d") || (← atNewline) || (← kind) == .endOfText then pure ()
  else fail ";"

/-- The text from a former place of the cursor up to the token before. -/
def textSince (origin : List Char) : Parse String := do
  let cursor ← get
  pure (String.ofList (origin.take (origin.length - cursor.behind.length)))

/-- A word of any kind, as names of members and exports may be. -/
def anyWord : Parse String := do
  match ← kind with
  | .word name _ => advance; pure name
  | _ => fail "a name"

/-- Whether the next token is a word. -/
def atAnyWord : Parse Bool := do
  match ← kind with
  | .word .. => pure true
  | _ => pure false

/-- Whether the next token is a word other than a keyword. -/
def atName : Parse Bool := do
  match ← kind with
  | .word name _ => return !reservedWords.contains name
  | _ => pure false

/-- Whether the next token is a name that an expression may consist of. -/
def atReference : Parse Bool := do
  match ← kind with
  | .word name _ => return !reservedWords.contains name && !moduleWords.contains name
  | _ => pure false

/-- Whether the next token is a name that no keyword of any kind is written as. -/
def atFreeName : Parse Bool := return (← atReference) && !(← atWord "let")

/-- A name that an expression may consist of. -/
def reference : Parse String := do
  if ← atReference then anyWord else fail "a name"

/-- A name that no keyword of any kind is written as. -/
def freeName : Parse String := do
  if ← atFreeName then anyWord else fail "a name"

/-- A name that is bound. Keywords of modules other than `await` may be bound, and so may `this`. -/
def boundName : Parse String := do
  if ((← atName) || (← atWord "this")) && !(← atWord "await") then anyWord else fail "a name"

end Parse

end ComponentSchema.Syntax
