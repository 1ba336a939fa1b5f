import ComponentSchema.Numeral.Binary64

/-!
# Reading JSON

Readers of JSON text that know what they expect. A text is read from left to right, and the first
thing that is wrong with it decides which fault it has.

A value of another kind than the expected is itself looked at first: only if it is well-formed as
far as it is looked at, the shape is at fault. Of an array or object of the wrong kind only the
bracket is looked at.
-/
namespace ComponentSchema.Json

/-- What is wrong with a text. -/
inductive Fault where
  /-- It is not JSON. -/
  | grammar
  /-- It is JSON as far as it was read, but not of the expected shape. -/
  | shape
  /-- It ends too early. -/
  | unfinished
  deriving DecidableEq, Repr, Inhabited

/-- A reader takes the front of a text and leaves the rest. -/
abbrev Reader := StateT (List Char) (Except Fault)

/-- The fault of a text that goes on with something unexpected: it may also have ended. -/
def Fault.at : List Char → Fault
  | [] => unfinished
  | _ => grammar

/-! ## Blanks and words -/

/-- Blanks between tokens. -/
def isBlank (c : Char) : Bool := c == ' ' || c == '\n' || c == '\t' || c == '\r'

namespace Reader

variable {α : Type}

/-- Moves past blanks. -/
def skipBlanks : Reader Unit := modify (·.dropWhile isBlank)

/-- The next character after blanks, if the text goes on. -/
def next? : Reader (Option Char) := do
  skipBlanks
  return (← get).head?

/-- Moves past one character. -/
def advance : Reader Unit := modify (·.drop 1)

/-- The text goes on with something unexpected. -/
def unexpected : Reader α := do throw (Fault.at (← get))

/-- Moves past a character that has to be next, after blanks. -/
def expect (c : Char) : Reader Unit := do
  if (← next?) == some c then advance else unexpected

end Reader

/-- The text after a word. -/
def afterWord : List Char → List Char → Except Fault (List Char)
  | [], text => .ok text
  | _ :: _, [] => .error .unfinished
  | c :: word, d :: text => if c == d then afterWord word text else .error .grammar

/-- Moves past a word that is known from its first character. -/
def Reader.word (word : String) : Reader Unit := do set (← afterWord word.toList (← get))

/-! ## Strings -/

/-- The value of a hexadecimal digit. -/
def hexValue? (c : Char) : Option Nat :=
  if '0' ≤ c && c ≤ '9' then some (c.toNat - '0'.toNat)
  else if 'a' ≤ c && c ≤ 'f' then some (c.toNat - 'a'.toNat + 10)
  else if 'A' ≤ c && c ≤ 'F' then some (c.toNat - 'A'.toNat + 10)
  else none

/-- The code unit of four hexadecimal digits. -/
def codeUnit? (a b c d : Char) : Option Nat := do
  let a ← hexValue? a
  let b ← hexValue? b
  let c ← hexValue? c
  let d ← hexValue? d
  pure (((a * 16 + b) * 16 + c) * 16 + d)

/-- The character that stands for itself or for a control character after a backslash. -/
def shortEscape? (c : Char) : Option Char :=
  if c == '\x22' || c == '\\' || c == '/' then some c
  else if c == 'b' then some '\x08'
  else if c == 'f' then some '\x0c'
  else if c == 'n' then some '\n'
  else if c == 'r' then some '\r'
  else if c == 't' then some '\t'
  else none

/-- The first half of a surrogate pair. -/
def isHighSurrogate (unit : Nat) : Bool := 0xd800 ≤ unit && unit ≤ 0xdbff

/-- The second half of a surrogate pair. -/
def isLowSurrogate (unit : Nat) : Bool := 0xdc00 ≤ unit && unit ≤ 0xdfff

/-- The character that a surrogate pair encodes. -/
def surrogatePair (high low : Nat) : Char :=
  Char.ofNat (0x10000 + (high - 0xd800) * 0x400 + (low - 0xdc00))

/-- The fault of a text that does not go on with four hexadecimal digits. Digits are four bytes, so
the text has ended too early if it has fewer bytes left. -/
def faultOfDigits (text : List Char) : Fault :=
  if (String.ofList (text.take 4)).utf8ByteSize < 4 then .unfinished else .grammar

/-- The fault of a text that does not go on with an escape after its backslash. -/
def faultOfEscape : List Char → Fault
  | [] => .unfinished
  | 'u' :: text => faultOfDigits text
  | _ => .grammar

/-- The fault of a text that does not go on with the second half of a surrogate pair. -/
def faultOfPair : List Char → Fault
  | [] => .unfinished
  | ['\\'] => .unfinished
  | '\\' :: 'u' :: text => faultOfDigits text
  | _ => .grammar

/-- Puts a character in front of what was read. -/
def prepend (c : Char) (found : List Char × List Char) : List Char × List Char :=
  (c :: found.1, found.2)

/-- The characters of a string up to its closing quote, and the text after it. Surrogates have to
come in pairs. -/
def stringRest : List Char → Except Fault (List Char × List Char)
  | [] => .error .unfinished
  | c :: text =>
    if c == '\x22' then .ok ([], text)
    else if c < ' ' then .error .grammar
    else if c != '\\' then (stringRest text).map (prepend c)
    else
      match text with
      | 'u' :: d₁ :: d₂ :: d₃ :: d₄ :: text =>
        match codeUnit? d₁ d₂ d₃ d₄ with
        | none => .error .grammar
        | some unit =>
          if isLowSurrogate unit then .error .grammar
          else if isHighSurrogate unit then
            match text with
            | '\\' :: 'u' :: e₁ :: e₂ :: e₃ :: e₄ :: text =>
              match codeUnit? e₁ e₂ e₃ e₄ with
              | none => .error .grammar
              | some low =>
                if isLowSurrogate low then
                  (stringRest text).map (prepend (surrogatePair unit low))
                else .error .grammar
            | text => .error (faultOfPair text)
          else (stringRest text).map (prepend (Char.ofNat unit))
      | e :: text =>
        match shortEscape? e with
        | some c => (stringRest text).map (prepend c)
        | none => .error (faultOfEscape (e :: text))
      | [] => .error .unfinished

/-- The text after a string that nobody asks for; surrogates may stand alone in it. -/
def afterString : List Char → Except Fault (List Char)
  | [] => .error .unfinished
  | c :: text =>
    if c == '\x22' then .ok text
    else if c < ' ' then .error .grammar
    else if c != '\\' then afterString text
    else
      match text with
      | 'u' :: d₁ :: d₂ :: d₃ :: d₄ :: text =>
        if (codeUnit? d₁ d₂ d₃ d₄).isSome then afterString text else .error .grammar
      | e :: text =>
        if (shortEscape? e).isSome then afterString text else .error (faultOfEscape (e :: text))
      | [] => .error .unfinished

/-- A string from its opening quote on. -/
def Reader.string : Reader String := do
  Reader.advance
  let (characters, text) ← stringRest (← get)
  set text
  pure (String.ofList characters)

/-! ## Numbers -/

/-- A number as it is written, without its sign. -/
structure Numeral where
  whole : List Char
  fraction : List Char
  exponent : Int
  deriving DecidableEq, Repr, Inhabited

/-- The digits that come next. -/
def Reader.digits : Reader (List Char) := do
  let text ← get
  set (text.dropWhile Char.isDigit)
  pure (text.takeWhile Char.isDigit)

/-- The digits that come next, at least one. `atEnd` is the fault of a text that ends here. -/
def Reader.someDigits (atEnd : Fault) : Reader (List Char) := do
  let found ← digits
  if found.isEmpty then throw (if (← get).isEmpty then atEnd else .grammar) else pure found

/-- Moves past one of some characters, if it is next. -/
def Reader.eatOneOf (characters : List Char) : Reader (Option Char) := do
  match (← get).head? with
  | some c => if characters.contains c then advance; pure (some c) else pure none
  | none => pure none

/-- The value of decimal digits. -/
def decimalValue (digits : List Char) : Nat :=
  digits.foldl (fun value c => value * 10 + (c.toNat - '0'.toNat)) 0

/-- A number from its sign on. `atEnd` is the fault of a text that ends where a digit is due. -/
def Reader.numeral (atEnd : Fault) : Reader Numeral := do
  let _ ← eatOneOf ['-']
  let whole ← someDigits atEnd
  if whole.head? == some '0' && whole.length > 1 then throw .grammar
  let point ← eatOneOf ['.']
  let fraction ← if point.isSome then someDigits atEnd else pure []
  let mark ← eatOneOf ['e', 'E']
  if mark.isNone then pure ⟨whole, fraction, 0⟩
  else
    let sign ← eatOneOf ['+', '-']
    let value : Int := decimalValue (← someDigits atEnd)
    pure ⟨whole, fraction, if sign == some '-' then -value else value⟩

/-- The leading digits whose value stays below `2 ^ 64`, given the value of the digits before
them. -/
def leadingDigits (value : Nat) : List Char → List Char
  | [] => []
  | c :: rest =>
    let value := value * 10 + (c.toNat - '0'.toNat)
    if value < Nat.pow 2 64 then c :: leadingDigits value rest else []

/-- The product of two numbers, rounded. -/
def product : Binary64 → Binary64 → Binary64
  | .finite a i, .finite b j =>
    let (num₁, den₁) := Binary64.ratio a i
    let (num₂, den₂) := Binary64.ratio b j
    Binary64.ofRatio (num₁ * num₂) (den₁ * den₂)
  | _, _ => .infinite

/-- Whether a number is too large. It is the product of its leading digits and a power of ten, each
rounded to binary floating point; digits beyond them count in the power of ten only if they are
whole. -/
def Numeral.overflows (numeral : Numeral) : Bool :=
  let kept := leadingDigits 0 (numeral.whole ++ numeral.fraction)
  let value := decimalValue kept
  let exponent := numeral.exponent + numeral.whole.length - kept.length
  if value == 0 || exponent < 0 then false
  else if exponent > 308 then true
  else
    product (Binary64.ofRatio value 1) (Binary64.ofRatio (Nat.pow 10 exponent.toNat) 1) == .infinite

/-! ## Other values -/

/-- Looks at a value of an unexpected kind; at its best the text is JSON of the wrong shape. -/
def Reader.misfit {α : Type} : Reader α := do
  match (← get).head? with
  | some 'n' => word "null"
  | some 't' => word "true"
  | some 'f' => word "false"
  | some '\x22' => let _ ← string
  | some '[' | some '\x7b' => pure ()
  | some c =>
    if c == '-' || c.isDigit then
      let found ← numeral .unfinished
      if found.overflows then throw .grammar
    else throw .grammar
  | none => throw .unfinished
  throw .shape

/-- Reads what stands between separators up to a closing bracket, at most `bound` times; `first`
tells that no part was read yet. Each part takes what was read so far further. -/
def Reader.parts {σ : Type} (closing : Char) (part : σ → Reader σ) : Nat → Bool → σ → Reader σ
  | 0, _, _ => unexpected
  | bound + 1, first, state => do
    match ← next? with
    | none => throw .unfinished
    | some c =>
      if c == closing then advance; pure state
      else if first then parts closing part bound false (← part state)
      else if c == ',' then
        advance
        if (← next?) == some closing then throw .grammar
        parts closing part bound false (← part state)
      else throw .grammar

/-- Reads parts up to a closing bracket; they take at least one character each. -/
def Reader.between {σ : Type} (closing : Char) (part : σ → Reader σ) (start : σ) : Reader σ := do
  parts closing part ((← get).length + 1) true start

/-- Moves past the opening quote of a key. -/
def Reader.expectKey : Reader Unit := do
  if (← next?) != some '\x22' then unexpected

/-- Moves past a value that nobody asks for; values nest at most `depth` deep. -/
def Reader.skipValue : Nat → Reader Unit
  | 0 => unexpected
  | depth + 1 => do
    match ← next? with
    | none => throw .unfinished
    | some 'n' => word "null"
    | some 't' => word "true"
    | some 'f' => word "false"
    | some '\x22' =>
      advance
      set (← afterString (← get))
    | some '[' =>
      advance
      between ']' (fun _ => skipValue depth) ()
    | some '\x7b' =>
      advance
      between '\x7d'
        (fun _ => do
          expectKey
          advance
          set (← afterString (← get))
          expect ':'
          skipValue depth)
        ()
    | some c =>
      if c == '-' || c.isDigit then let _ ← numeral .grammar
      else throw .grammar

/-- Moves past a value that nobody asks for. A text nests no deeper than it is long. -/
def Reader.skip : Reader Unit := do skipValue ((← get).length + 1)

/-- What a reader finds in a whole text. -/
def Reader.ofText {α : Type} (reader : Reader α) (text : String) : Except Fault α := do
  let (value, rest) ← reader text.toList
  if (rest.dropWhile isBlank).isEmpty then pure value else throw .grammar

end ComponentSchema.Json
