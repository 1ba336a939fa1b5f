/-!
# Glob patterns

Patterns that are matched against the whole text of a path. `?` stands for one character, `*` for
any characters, `[ab]` and `[!ab]` for one character of a set or outside it; none of them minds
separators. `**` has to be a whole component of the pattern; it stands for nothing, for everything
up to some separator, or for everything.
-/
namespace ComponentSchema

/-- A part of a set of characters. -/
inductive CharRange where
  | single (c : Char)
  | between (first last : Char)
  deriving DecidableEq, Repr, Inhabited

/-- Whether a character lies in a range. -/
def CharRange.contains : CharRange → Char → Bool
  | single c, d => c == d
  | between first last, d => first ≤ d && d ≤ last

/-- A part of a pattern. -/
inductive Wildcard where
  | literal (c : Char)
  /-- `?`. -/
  | anyChar
  /-- `*`. -/
  | anyText
  /-- `**`, with the separator after it. -/
  | anyComponents
  /-- `[ab]`. -/
  | within (set : List CharRange)
  /-- `[!ab]`. -/
  | outside (set : List CharRange)
  deriving DecidableEq, Repr, Inhabited

/-- What a pattern is made of, front to back. -/
abbrev Glob := List Wildcard

/-- Why a text is no pattern. -/
inductive GlobFault where
  | tooManyStars
  | partOfComponent
  | openSet
  deriving DecidableEq, Repr, Inhabited

/-- What is wrong with a pattern, and at which character. -/
structure GlobError where
  position : Nat
  fault : GlobFault
  deriving DecidableEq, Repr, Inhabited

/-- The words for a fault. -/
def GlobFault.message : GlobFault → String
  | tooManyStars => "wildcards are either regular `*` or recursive `**`"
  | partOfComponent => "recursive wildcards must form a single path component"
  | openSet => "invalid range pattern"

/-- The words for an error. -/
def GlobError.message (error : GlobError) : String :=
  "Pattern syntax error near position " ++ toString error.position ++ ": " ++ error.fault.message

namespace Glob

/-! ## Reading -/

/-- The ranges of a set; a minus between two characters makes a range of them. -/
def rangesOf : List Char → List CharRange
  | first :: '-' :: last :: rest => .between first last :: rangesOf rest
  | c :: rest => .single c :: rangesOf rest
  | [] => []

/-- A set up to its closing bracket, and the text after it. A bracket in the first place is an
element. -/
def setOf? : List Char → Option (List CharRange × List Char)
  | [] => none
  | first :: rest =>
    let others := rest.takeWhile (· != ']')
    match rest.drop others.length with
    | [] => none
    | _ :: after => some (rangesOf (first :: others), after)

/-- The wildcard after an opening bracket, and the text after it. -/
def bracket? : List Char → Option (Wildcard × List Char)
  | '!' :: rest => (setOf? rest).map fun (set, after) => (.outside set, after)
  | rest => (setOf? rest).map fun (set, after) => (.within set, after)

/-- The wildcard after a star, and the text after it; `position` is that of the star, and `previous`
is the character before it. -/
def stars (position : Nat) (previous : Option Char) (rest : List Char) :
    Except GlobError (Wildcard × List Char) :=
  let more := rest.takeWhile (· == '*')
  let after := rest.drop more.length
  match more.length with
  | 0 => .ok (.anyText, after)
  | 1 =>
    if previous == none || previous == some '/' then
      match after with
      | [] => .ok (.anyComponents, [])
      | '/' :: after => .ok (.anyComponents, after)
      | _ => .error ⟨position + 2, .partOfComponent⟩
    else .error ⟨position - 1, .partOfComponent⟩
  | _ => .error ⟨position + 2, .tooManyStars⟩

/-- The wildcard that a text starts with, and the text after it. -/
def wildcard (position : Nat) (previous : Option Char) (c : Char) (rest : List Char) :
    Except GlobError (Wildcard × List Char) :=
  if c == '?' then .ok (.anyChar, rest)
  else if c == '*' then stars position previous rest
  else if c == '[' then
    match bracket? rest with
    | some found => .ok found
    | none => .error ⟨position, .openSet⟩
  else .ok (.literal c, rest)

/-- The wildcards of the end of a pattern. Each takes at least one of the `bound` characters that
are left. -/
def wildcards : (bound : Nat) → (position : Nat) → (previous : Option Char) → List Char →
    Except GlobError Glob
  | _, _, _, [] => .ok []
  | 0, position, _, _ :: _ => .error ⟨position, .openSet⟩
  | bound + 1, position, previous, c :: rest => do
    let (first, after) ← wildcard position previous c rest
    let taken := (c :: rest).take (rest.length + 1 - after.length)
    let others ← wildcards bound (position + taken.length) taken.getLast? after
    pure (first :: others)

/-- The pattern that a text is. -/
def ofText (text : String) : Except GlobError Glob :=
  wildcards text.length 0 none text.toList

/-! ## Matching -/

/-- Whether some end of a text is accepted. -/
def anyEnd (accepts : List Char → Bool) : List Char → Bool
  | [] => accepts []
  | c :: rest => accepts (c :: rest) || anyEnd accepts rest

/-- Whether some end of a text after a separator, or the empty end, is accepted. -/
def anyComponentEnd (accepts : List Char → Bool) : List Char → Bool
  | [] => accepts []
  | c :: rest => (c == '/' && accepts rest) || anyComponentEnd accepts rest

/-- Whether a text matches. -/
def accepts : Glob → List Char → Bool
  | [], text => text.isEmpty
  | .anyText :: pattern, text => anyEnd (accepts pattern) text
  | .anyComponents :: pattern, text =>
    accepts pattern text || anyComponentEnd (accepts pattern) text
  | .literal _ :: _, [] => false
  | .literal c :: pattern, d :: text => c == d && accepts pattern text
  | .anyChar :: _, [] => false
  | .anyChar :: pattern, _ :: text => accepts pattern text
  | .within _ :: _, [] => false
  | .within set :: pattern, d :: text => set.any (·.contains d) && accepts pattern text
  | .outside _ :: _, [] => false
  | .outside set :: pattern, d :: text => !set.any (·.contains d) && accepts pattern text

end Glob

end ComponentSchema
