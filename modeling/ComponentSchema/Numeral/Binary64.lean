/-!
# Binary64 numerals

Numerals denote 64-bit binary floating point numbers, and a number is written with the fewest
decimal digits that read back as it, always positionally. Everything is exact arithmetic on natural
numbers.

A finite number is `mantissa * 2 ^ exponent` with `mantissa < 2 ^ 53` and `-1074 ≤ exponent ≤ 971`.
-/
namespace ComponentSchema

/-- A number that is not negative: finite, or too large to be finite. -/
inductive Binary64 where
  | finite (mantissa : Nat) (exponent : Int)
  | infinite
  deriving DecidableEq, Repr, Inhabited

namespace Binary64

/-- The quotient rounded to the nearest natural number, a half to the even one. -/
def roundHalfEven (num den : Nat) : Nat :=
  let quotient := num / den
  let rest := 2 * (num % den)
  if rest > den || (rest == den && quotient % 2 == 1) then quotient + 1 else quotient

/-- `num / (den * 2 ^ shift)` as a ratio of natural numbers. -/
def scaled (num den : Nat) (shift : Int) : Nat × Nat :=
  if shift < 0 then (num * Nat.pow 2 (-shift).toNat, den)
  else (num, den * Nat.pow 2 shift.toNat)

/-- The number nearest to `num / den`, a tie going to the even mantissa. -/
def ofRatio (num den : Nat) : Binary64 :=
  if num == 0 then finite 0 0
  else
    let estimate : Int := (Nat.log2 num : Int) - Nat.log2 den - 52
    let (top, bottom) := scaled num den estimate
    let exponent := max (-1074) (if top < bottom * Nat.pow 2 52 then estimate - 1 else estimate)
    let (top, bottom) := scaled num den exponent
    let mantissa := roundHalfEven top bottom
    let (mantissa, exponent) :=
      if mantissa == Nat.pow 2 53 then (Nat.pow 2 52, exponent + 1) else (mantissa, exponent)
    if exponent > 971 then infinite else finite mantissa exponent

/-- The number nearest to `digits * 10 ^ exponent`, where `digits` has `count` decimal digits.
Powers far outside the finite range are decided by their size alone. -/
def ofDecimal (digits count : Nat) (exponent : Int) : Binary64 :=
  if digits == 0 then finite 0 0
  else if exponent + count < -400 then finite 0 0
  else if exponent > 400 then infinite
  else if exponent < 0 then ofRatio digits (Nat.pow 10 (-exponent).toNat)
  else ofRatio (digits * Nat.pow 10 exponent.toNat) 1

/-- A finite number as a ratio. -/
def ratio (mantissa : Nat) (exponent : Int) : Nat × Nat :=
  if exponent < 0 then (mantissa, Nat.pow 2 (-exponent).toNat)
  else (mantissa * Nat.pow 2 exponent.toNat, 1)

/-- The number read digit by digit in a radix, rounded after every digit. -/
def ofDigits (radix : Nat) (digits : List Nat) : Binary64 :=
  digits.foldl
    (fun total digit =>
      match total with
      | infinite => infinite
      | finite mantissa exponent =>
        let (num, den) := ratio mantissa exponent
        ofRatio (num * radix + digit * den) den)
    (finite 0 0)

/-- The least `k` at or above `start` with `num / den < 10 ^ k`, looked for in `steps` steps. -/
def decimalPoint (num den : Nat) : Nat → Int → Int
  | 0, start => start
  | steps + 1, start =>
    let fits :=
      if start < 0 then num * Nat.pow 10 (-start).toNat < den else num < den * Nat.pow 10 start.toNat
    if fits then start else decimalPoint num den steps (start + 1)

/-- The decimal grid point `digits * 10 ^ place` as a ratio. -/
def gridRatio (digits : Nat) (place : Int) : Nat × Nat :=
  if place < 0 then (digits, Nat.pow 10 (-place).toNat) else (digits * Nat.pow 10 place.toNat, 1)

/-- The nearer of the two grid neighbours of `num / den` that reads back as `value`, if one does; of
two that are equally near, the greater. -/
def readingBack (value : Binary64) (num den : Nat) (place : Int) : Option Nat :=
  let (top, bottom) :=
    if place < 0 then (num * Nat.pow 10 (-place).toNat, den)
    else (num, den * Nat.pow 10 place.toNat)
  let below := top / bottom
  let above := below + 1
  let reads digits := let (n, d) := gridRatio digits place; ofRatio n d == value
  let nearer := if 2 * (top % bottom) < bottom then (below, above) else (above, below)
  if reads nearer.1 then some nearer.1 else if reads nearer.2 then some nearer.2 else none

/-- The digits of the shortest decimal that reads back, and the place of its last digit; at most
`steps` more digits are tried after `count`. -/
def shortest (value : Binary64) (num den : Nat) (point : Int) : Nat → Nat → Nat × Int
  | 0, count =>
    let place := point - count
    (((readingBack value num den place)).getD 0, place)
  | steps + 1, count =>
    let place := point - count
    match readingBack value num den place with
    | some digits => (digits, place)
    | none => shortest value num den point steps (count + 1)

/-- `digits * 10 ^ place` in positional notation. -/
def positional (digits : Nat) (place : Int) : List Char :=
  let shown := Nat.toDigits 10 digits
  if place ≥ 0 then shown ++ List.replicate place.toNat '0'
  else
    let places := (-place).toNat
    if shown.length > places then
      shown.take (shown.length - places) ++ '.' :: shown.drop (shown.length - places)
    else '0' :: '.' :: (List.replicate (places - shown.length) '0' ++ shown)

/-- The number as it is written: the fewest digits that read back, positionally. -/
def text : Binary64 → String
  | infinite => "inf"
  | finite 0 _ => "0"
  | finite mantissa exponent =>
    let (num, den) := ratio mantissa exponent
    let start : Int := ((Nat.log2 num : Int) - Nat.log2 den - 1) * 3 / 10 - 2
    let point := decimalPoint num den 700 start
    let (digits, place) := shortest (finite mantissa exponent) num den point 17 1
    -- the grid point above nine is ten
    if digits == 10 then String.ofList (positional 1 (place + 1))
    else String.ofList (positional digits place)

end Binary64

end ComponentSchema
