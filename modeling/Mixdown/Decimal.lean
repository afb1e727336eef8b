import Mixdown.Signal.Word

/-! Numbers in decimal digits: written with fixed places, and read to the nearest number. -/

namespace Mixdown

namespace Decimal

/-- The value of a digit string. -/
def ofDigits (digits : List Char) : Nat :=
  digits.foldl (fun value c => value * 10 + (c.toNat - '0'.toNat)) 0

/-- The nearest quotient, a tie going to the even neighbour. -/
def roundDiv (value divisor : Nat) : Nat :=
  let quotient := value / divisor
  let twice := 2 * (value % divisor)
  if divisor < twice ∨ divisor = twice ∧ quotient % 2 = 1 then quotient + 1 else quotient

/-- A power of ten. -/
def powerOfTen (exponent : Nat) : Nat := Nat.pow 10 exponent

/-- The digits of a number of units of which `10 ^ places` make a whole. -/
def fixed (places units : Nat) : List Char :=
  let whole := Nat.toDigits 10 (units / powerOfTen places)
  let part := Nat.toDigits 10 (units % powerOfTen places)
  -- The digits of a number begin without zeros, which the part behind the point needs.
  whole ++ '.' :: (List.replicate (places - part.length) '0' ++ part)

/-- A text with blanks in front of it up to a width. -/
def padded (width : Nat) (text : List Char) : List Char :=
  List.replicate (width - text.length) ' ' ++ text

/-- A number as it is written: its digits, the places behind the point and the exponent. -/
structure Numeral where
  digits : List Char
  places : Nat
  exponent : Int

/-- The exponent behind the digits of a number, which begins with its letter if there is one. -/
def exponent? : List Char → Option Int
  | [] => some 0
  | c :: text => do
    guard (c = 'e' ∨ c = 'E')
    let (negative, digits) :=
      match text with
      | '-' :: digits => (true, digits)
      | '+' :: digits => (false, digits)
      | digits => (false, digits)
    guard (!digits.isEmpty && digits.all Char.isDigit)
    let magnitude : Int := ofDigits digits
    pure (if negative then -magnitude else magnitude)

/-- A number without sign, which has a digit in front of its point or behind it. -/
def numeral? (text : List Char) : Option Numeral := do
  let whole := text.takeWhile Char.isDigit
  let rest := text.dropWhile Char.isDigit
  let (part, rest) :=
    match rest with
    | '.' :: rest => (rest.takeWhile Char.isDigit, rest.dropWhile Char.isDigit)
    | rest => ([], rest)
  guard !(whole ++ part).isEmpty
  let exponent ← exponent? rest
  pure { digits := whole ++ part, places := part.length, exponent }

end Decimal

namespace Single

/-- Infinity. -/
def infinity : Single := ⟨0x7F800000⟩

/-- The field of the pattern that holds the exponent. -/
def exponentField (word : Single) : Nat := ((word.bits >>> 23) &&& 0xFF).toNat

/-- The significands of normal numbers begin here. -/
def leastNormal : Nat := 0x800000

/-- The magnitude of a finite number in units of the exponent's power of two. -/
def significand (word : Single) : Nat :=
  let fraction := (word.bits &&& 0x7FFFFF).toNat
  if word.exponentField = 0 then fraction else leastNormal + fraction

/-- The power of two in whose units the significand counts. -/
def exponent (word : Single) : Int := (max word.exponentField 1 : Nat) - 150

/-- The number nearest to a positive quotient, a tie going to the even significand. -/
def ofRatio (value divisor : Nat) : Single :=
  -- The quotient has 24 or 25 bits in units of `2 ^ guess`, unless it is below the normal range.
  let guess : Int := max (-149) ((value.log2 : Int) - divisor.log2 - 24)
  let scaled (exponent : Int) : Nat × Nat :=
    if 0 ≤ exponent then (value, divisor <<< exponent.toNat)
    else (value <<< (-exponent).toNat, divisor)
  let (top, bottom) := scaled guess
  let exponent := if 2 * leastNormal ≤ top / bottom then guess + 1 else guess
  let (top, bottom) := scaled exponent
  -- A significand that rounds up to the next power of two carries into the exponent's bits.
  let bits := Decimal.roundDiv top bottom + (exponent + 149).toNat * leastNormal
  if infinity.bits.toNat ≤ bits then infinity else ⟨UInt32.ofNat bits⟩

/-- No number has more decimal digits in front of its point, nor more zeros behind it. -/
def largestMagnitude : Int := 50

/-- The number nearest to a numeral; beyond the range it is infinity and below it zero. -/
def ofNumeral (numeral : Decimal.Numeral) : Single :=
  let digits := numeral.digits.dropWhile (· = '0')
  let exponent := numeral.exponent - numeral.places
  let magnitude := digits.length + exponent
  let value := Decimal.ofDigits digits
  -- What is far out of range is decided before a power of ten is formed.
  if value = 0 ∨ magnitude < -largestMagnitude then 0
  else if largestMagnitude < magnitude then infinity
  else if 0 ≤ exponent then ofRatio (value * Decimal.powerOfTen exponent.toNat) 1
  else ofRatio value (Decimal.powerOfTen (-exponent).toNat)

/-- The number that a text without sign writes, if it writes one. -/
def ofMagnitudeText? (text : List Char) : Option Single :=
  let lower := text.map Char.toLower
  if lower = "inf".toList ∨ lower = "infinity".toList then some infinity
  else if lower = "nan".toList then some infinity.quiet
  else ofNumeral <$> Decimal.numeral? text

/-- The number that a text writes, if it writes one. -/
def ofText? (text : String) : Option Single :=
  match text.toList with
  | '-' :: text => negate <$> ofMagnitudeText? text
  | '+' :: text => ofMagnitudeText? text
  | text => ofMagnitudeText? text

/-- The digits of a number's magnitude, rounded to some places with a tie to the even digit. -/
def magnitudeText (places : Nat) (word : Single) : List Char :=
  if word.abs = infinity then "inf".toList
  else
    let units := word.significand * Decimal.powerOfTen places
    if 0 ≤ word.exponent then Decimal.fixed places (units <<< word.exponent.toNat)
    else Decimal.fixed places (Decimal.roundDiv units (1 <<< (-word.exponent).toNat))

/-- A number with some places behind its point; a NaN has no sign, but every other number does. -/
def toText (places : Nat) (word : Single) : List Char :=
  if word.isNaN then "NaN".toList
  else if word.bits &&& 0x80000000 = 0 then word.magnitudeText places
  else '-' :: word.magnitudeText places

end Single

end Mixdown
