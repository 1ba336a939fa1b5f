import ComponentSchema.Syntax.Grammar.Items

/-!
# Source text

From the text of a file to its tree. The name of a file decides which language it is written in:
plain TypeScript, where `<T>x` is a cast, or TypeScript with JSX.
-/
namespace ComponentSchema.Syntax

/-- The language variant that a file is written in. -/
structure Variant where
  /-- JSX elements are expressions. -/
  tsx : Bool
  /-- A file of declarations only. -/
  dts : Bool
  deriving DecidableEq, Repr, Inhabited

/-- The variant that the name of a file calls for. Mirrors the parser's `syntax_for_path`. -/
def Variant.ofPath (path : String) : Variant :=
  let endsWith (suffix : String) : Bool := suffix.toList.isSuffixOf path.toList
  ⟨!(endsWith ".ts" || endsWith ".mts" || endsWith ".cts"),
    endsWith ".d.ts" || endsWith ".d.mts" || endsWith ".d.cts"⟩

namespace Grammar

/-- The grammar one level up. -/
def layer (g : Grammar) : Grammar where
  tsx := g.tsx
  bound := g.bound
  type := g.typeRule
  operandType := g.operatorType true
  assignment := g.assignmentRule
  unary := g.unaryRule
  leftSide := g.leftSideRule
  element := g.elementRule
  binding := g.bindingRule
  statement := g.statementRule
  item := g.itemRule

/-- The grammar for texts nested at most `depth` levels deep. -/
def ofDepth (tsx : Bool) (bound depth : Nat) : Grammar :=
  Nat.repeat layer depth (empty tsx bound)

/-- The items up to the end of the text. -/
def items (g : Grammar) (ambient : Bool) : Parse (List Item) :=
  Parse.many (do
    if (← Parse.kind) == .endOfText then pure none else some <$> g.itemRule ambient) g.bound

end Grammar

/-- The text without a byte order mark and a first line that starts with `#!`. -/
def dropPreamble (text : List Char) : List Char :=
  let text := if text.head?.any (·.toNat == 0xfeff) then text.drop 1 else text
  match text with
  | '#' :: '!' :: rest => rest.dropWhile fun c => !Text.isLineEnd c
  | _ => text

/-- The tree of a source text. All of a file of declarations is ambient. Mirrors the parser's
`parse_tsx_source`. -/
def SourceTree.parse (variant : Variant) (text : String) : Except SyntaxError SourceTree := do
  let text := dropPreamble text.toList
  let bound := text.length + 2
  let grammar := Grammar.ofDepth variant.tsx bound (2 * bound)
  let (items, _) ← (grammar.items variant.dts).run (Cursor.start text)
  pure ⟨items⟩

end ComponentSchema.Syntax
