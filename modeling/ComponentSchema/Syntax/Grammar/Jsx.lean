import ComponentSchema.Syntax.Grammar.Expressions

/-!
# JSX

Readers of JSX elements. Between the `>` of an opening tag and the next `<` or `{` the text is not
made of tokens, so a reader of an element stops at its last `>` and leaves it to the reader around
it to go on with text or with tokens.
-/
namespace ComponentSchema.Syntax

open Parse

namespace Grammar

variable (g : Grammar)

/-- A word of a tag or attribute name, which may contain dashes. -/
def jsxWord : Parse String := do
  match (← token).kind with
  | .word .. =>
    let text := (← token).origin.takeWhile fun c => Text.isIdentifierPart c || c == '-'
    advancePast (.word (String.ofList text) true) text.length
    pure (String.ofList text)
  | _ => fail "a name"

/-- The name of a tag: `a`, `a:b` or `A.B.C`. -/
def jsxName : Parse String := do
  let first ← jsxWord
  if ← eatMark ":" then return first ++ ":" ++ (← jsxWord)
  else
    let names ← many (do if ← eatMark "." then some <$> jsxWord else pure none) g.bound
    pure (".".intercalate (first :: names))

/-- Goes on with tokens in the text after a `{`, `}` or `>` that is next. -/
def resume (kind : TokenKind) (text : List Char) : Parse Unit :=
  set (Cursor.following kind text)

/-- An expression in braces, up to and without the closing brace. -/
def jsxContainer : Parse (List Expr) := do
  expectMark "\x7b"
  if ← atMark "\x7d" then pure []
  else
    let _ ← eatMark "..."
    let inner ← g.expression Place.free
    if ← atMark "\x7d" then pure [inner] else fail "\x7d"

/-- The value of an attribute. -/
def jsxAttributeValue : Parse (List Expr) := do
  match (← token).origin with
  | '\x22' :: rest | '\x27' :: rest =>
    let quote := (← token).origin.take 1
    match rest.dropWhile fun c => !quote.contains c with
    | _ :: after => resume (.string ⟨"", none⟩) after; pure []
    | [] => fail "a quote"
  | _ =>
    if ← atMark "\x7b" then
      let inner ← g.jsxContainer
      if inner.isEmpty then fail "an expression"
      expectMark "\x7d"
      pure inner
    else
      let inner ← g.element
      expectMark ">"
      pure inner

/-- An attribute, if there is one. -/
def jsxAttribute : Parse (Option (List Expr)) := do
  match ← kind with
  | .word .. =>
    let _ ← jsxWord
    if ← eatMark ":" then
      let _ ← jsxWord
    if ← eatMark "=" then some <$> g.jsxAttributeValue else pure (some [])
  | .mark "\x7b" =>
    advance
    expectMark "..."
    let inner ← g.assignment Place.free
    expectMark "\x7d"
    pure (some [inner])
  | _ => pure none

/-- A child in text, if it comes before the closing tag; the cursor's text starts with the child.
When the closing tag comes, its `<` and `/` are read. -/
def jsxChild : Parse (Option (List Expr)) := do
  let text := (← get).rest.dropWhile fun c => c != '<' && c != '\x7b'
  match text with
  | '<' :: _ =>
    resume (.mark ">") text
    let closes ← ahead (do expectMark "<"; atMark "/")
    if closes then
      advance
      advance
      pure none
    else some <$> g.element
  | '\x7b' :: _ =>
    resume (.mark ">") text
    some <$> g.jsxContainer
  | _ => fail "a closing tag"

/-- The children of an element and its closing tag, up to and without the last `>`. -/
def jsxChildren (name : String) : Parse (List Expr) := do
  let children ← many g.jsxChild g.bound
  let closing ← if ← atMark ">" then pure "" else g.jsxName
  if closing != name then fail "the name of the opening tag"
  if ← atMark ">" then pure children.flatten else fail ">"

/-- An element or fragment, up to and without its last `>`. -/
def elementRule : Parse (List Expr) := do
  expectMark "<"
  if ← atMark ">" then g.jsxChildren ""
  else
    let name ← g.jsxName
    g.maybeTypeArguments
    let attributes ← many g.jsxAttribute g.bound
    if ← eatMark "/" then
      if ← atMark ">" then pure attributes.flatten else fail ">"
    else if ← atMark ">" then return attributes.flatten ++ (← g.jsxChildren name)
    else fail ">"

end Grammar

end ComponentSchema.Syntax
