import ComponentSchema.Syntax.Cursor
import ComponentSchema.Syntax.Tree

/-!
# The grammar, one level down

The rules of the grammar refer to each other in circles. A `Grammar` holds the readers that close
those circles, for texts nested one level less deep; each rule is a function of it. The grammar of
depth `n + 1` is made from that of depth `n`, and a rule goes down a level only after it has read a
token, so the length of a text is depth enough for it.
-/
namespace ComponentSchema.Syntax

/-- In which place an expression stands. -/
structure Place where
  /-- Whether `in` is an operator here. -/
  allowIn : Bool
  /-- Between `?` and `:`, where a colon does not start a return type. -/
  inBranch : Bool
  deriving DecidableEq, Repr, Inhabited

/-- An expression that nothing around it restricts. -/
def Place.free : Place := ⟨true, false⟩

/-- What stands around a declaration. -/
structure Surroundings where
  /-- It follows `export` or `declare`, so that the word it starts with is no name of its own and a
  line may end after that word. -/
  anchored : Bool
  /-- It tells of something that is defined elsewhere. -/
  ambient : Bool
  deriving DecidableEq, Repr, Inhabited

structure Grammar where
  /-- Whether `<` starts a JSX element where an expression may start. -/
  tsx : Bool
  /-- More tokens than the text has. -/
  bound : Nat
  type : Parse TypeExpr
  /-- The operand of a type operator. -/
  operandType : Parse TypeExpr
  /-- An expression without a comma outside of brackets. -/
  assignment : Place → Parse Expr
  /-- An operand of a binary operator. -/
  unary : Place → Parse Expr
  /-- An expression with the calls and member accesses after it; without calls after `new`. -/
  leftSide (calls : Bool) : Parse Expr
  /-- A JSX element from its `<` on, up to and without its last `>`. -/
  element : Parse (List Expr)
  /-- What a declaration or a parameter binds; the answer is its name, unless it is a pattern. -/
  binding : Parse (Option String)
  statement : Parse Stmt
  /-- An item of a file or of a namespace, which may be ambient. -/
  item (ambient : Bool) : Parse Item

namespace Grammar

/-- Nothing is read at depth zero. -/
def empty (tsx : Bool) (bound : Nat) : Grammar where
  tsx := tsx
  bound := bound
  type := Parse.fail "less depth"
  operandType := Parse.fail "less depth"
  assignment _ := Parse.fail "less depth"
  unary _ := Parse.fail "less depth"
  leftSide _ := Parse.fail "less depth"
  element := Parse.fail "less depth"
  binding := Parse.fail "less depth"
  statement := Parse.fail "less depth"
  item _ := Parse.fail "less depth"

end Grammar

end ComponentSchema.Syntax
