import Mixdown.Decimal
import Mixdown.Error

/-! The parts of a structured text, read from its front: blanks, words, numbers and strings. -/

namespace Mixdown.Json

/-- A parser takes a value off the front of a text, or says why there is none. -/
abbrev Parser (α : Type) := StateT (List Char) (Except TextError) α

/-- The characters between the parts of a text. -/
def isBlank (c : Char) : Bool := c = ' ' || c = '\n' || c = '\t' || c = '\r'

/-- Passes blanks and gives the character behind them, which stays in the text. -/
def peek : Parser (Option Char) := fun text =>
  -- Blanks are passed for good, even if nothing is taken behind them.
  let rest := text.dropWhile isBlank
  .ok (rest.head?, rest)

/-- Passes one character. -/
def pass : Parser Unit := fun text => .ok ((), text.drop 1)

/-- Passes the rest of a word that has begun. -/
def word : List Char → Parser Unit
  | [], text => .ok ((), text)
  | _ :: _, [] => .error .ending
  | c :: cs, d :: text => if c = d then word cs text else .error .grammar

/-- The value of a hexadecimal digit. -/
def hexDigit? (c : Char) : Option Nat :=
  -- The digits stand in three runs of the character table.
  if '0' ≤ c ∧ c ≤ '9' then some (c.toNat - 48)
  else if 'a' ≤ c ∧ c ≤ 'f' then some (c.toNat - 87)
  else if 'A' ≤ c ∧ c ≤ 'F' then some (c.toNat - 55)
  else none

/-- The number that four hexadecimal digits write. -/
def hexCode? (a b c d : Char) : Option Nat := do
  let a ← hexDigit? a
  let b ← hexDigit? b
  let c ← hexDigit? c
  let d ← hexDigit? d
  pure (((a * 16 + b) * 16 + c) * 16 + d)

/-- Why a code of fewer than four characters fails; it is the bytes of the text that are counted. -/
def shortCode (text : List Char) : TextError :=
  if (String.ofList text).utf8ByteSize < 4 then .ending else .grammar

/-- The character that a letter stands for after a backslash. -/
def escaped? : Char → Option Char
  | '"' => some '"'
  | '\\' => some '\\'
  | '/' => some '/'
  | 'b' => some '\x08'
  | 'f' => some '\x0c'
  | 'n' => some '\n'
  | 'r' => some '\r'
  | 't' => some '\t'
  | _ => none

/-- A code that begins a pair. -/
def isLeading (code : Nat) : Bool := 0xD800 ≤ code && code < 0xDC00

/-- A code that ends a pair. -/
def isTrailing (code : Nat) : Bool := 0xDC00 ≤ code && code < 0xE000

/-- The characters of a string up to its closing quote, latest first in `seen`. A `strict` reading
wants the codes of a pair together, a lax one only wants them written right. -/
def stringFrom (strict : Bool) : (text : List Char) → (seen : List Char) →
    Except TextError (List Char × List Char)
  | [], _ => .error .ending
  | '"' :: text, seen => .ok (seen.reverse, text)
  | '\\' :: 'u' :: a :: b :: c :: d :: text, seen =>
    match hexCode? a b c d with
    | none => .error .grammar
    | some code =>
      if !strict then stringFrom strict text seen
      else if isTrailing code then .error .grammar
      else if isLeading code then
        match text with
        | '\\' :: 'u' :: e :: f :: g :: h :: text =>
          match hexCode? e f g h with
          | none => .error .grammar
          | some second =>
            if isTrailing second then
              -- Each code of a pair carries ten bits of the character.
              let both := 0x10000 + (code - 0xD800) * 0x400 + (second - 0xDC00)
              stringFrom strict text (Char.ofNat both :: seen)
            else .error .grammar
        | '\\' :: 'u' :: rest => .error (shortCode rest)
        | [] | ['\\'] => .error .ending
        | _ => .error .grammar
      else stringFrom strict text (Char.ofNat code :: seen)
  | '\\' :: 'u' :: rest, _ => .error (shortCode rest)
  | ['\\'], _ => .error .ending
  | '\\' :: c :: text, seen =>
    match escaped? c with
    | none => .error .grammar
    | some c => stringFrom strict text (c :: seen)
  -- Control characters may only stand in a string as escapes.
  | c :: text, seen => if c < ' ' then .error .grammar else stringFrom strict text (c :: seen)

/-- The characters of a string whose opening quote is next. -/
def string (strict : Bool) : Parser (List Char) := fun text => stringFrom strict (text.drop 1) []

/-- A number as it is written. -/
structure Numeral where
  negative : Bool
  whole : List Char
  /-- The digits behind the point, if there is one. -/
  fraction : Option (List Char)
  /-- The sign and the digits of the exponent, if there is one. -/
  exponent : Option (Bool × List Char)

/-- At least one digit; `early` is the reason when the text ends instead. -/
def digits (early : TextError) : Parser (List Char) := fun text =>
  match text with
  | [] => .error early
  | c :: _ =>
    if c.isDigit then .ok (text.takeWhile Char.isDigit, text.dropWhile Char.isDigit)
    else .error .grammar

/-- Passes a character if it comes next, and says whether it did. -/
def passIf (wanted : Char → Bool) : Parser Bool := fun text =>
  match text with
  | c :: rest => if wanted c then .ok (true, rest) else .ok (false, text)
  | [] => .ok (false, [])

/-- A number, whose whole part has no zero in front of other digits. -/
def numeral (early : TextError) : Parser Numeral := do
  let negative ← passIf (· = '-')
  let whole ← digits early
  if whole.head? = some '0' ∧ 1 < whole.length then throw .grammar
  let fraction ← if ← passIf (· = '.') then some <$> digits early else pure none
  let exponent ←
    if ← passIf (fun c => c = 'e' || c = 'E') then
      let down ← passIf (· = '-')
      -- An exponent has at most one sign.
      let _ ← if down then pure false else passIf (· = '+')
      let places ← digits early
      pure (some (down, places))
    else pure none
  pure { negative, whole, fraction, exponent }

/-- The values that numbers are read as. -/
inductive Number where
  /-- A natural number below two to the 64th. -/
  | natural (value : Nat)
  /-- A negative integer, not below minus two to the 63rd, by its magnitude. -/
  | negative (magnitude : Nat)
  /-- Any other number, in double precision. -/
  | real (value : Float)

/-- Appends digits to a number while it stays below two to the 64th, with the digits left over. -/
def gather : (digits : List Char) → (value : Nat) → Nat × List Char
  | [], value => (value, [])
  | c :: digits, value =>
    let next := value * 10 + (c.toNat - 48)
    if next < UInt64.size then gather digits next else (value, c :: digits)

/-- The powers of ten that double precision holds. -/
def largestPower : Nat := 308

/-- A power of ten in double precision. -/
def powerOfTen (exponent : Nat) : Float := OfScientific.ofScientific 1 false exponent

/-- A number divided by a power of ten in steps; after the third nothing of it is left. -/
def scaleDown : (steps : Nat) → (value : Float) → (exponent : Nat) → Float
  | 0, value, _ => value
  | steps + 1, value, exponent =>
    if exponent ≤ largestPower then value / powerOfTen exponent
    else scaleDown steps (value / powerOfTen largestPower) (exponent - largestPower)

/-- A number of up to 64 bits times a power of ten, each of them rounded before they are combined;
a product beyond double precision is no number. -/
def scale (significand : Nat) (exponent : Int) : Except TextError Float :=
  let value := significand.toUInt64.toFloat
  if exponent < 0 then .ok (scaleDown 4 value exponent.natAbs)
  else if exponent.natAbs ≤ largestPower then
    let product := value * powerOfTen exponent.natAbs
    if product.isInf then .error .grammar else .ok product
  -- Zero stays zero under any power of ten.
  else if significand = 0 then .ok value
  else .error .grammar

/-- The largest exponent that is worked out; larger ones overflow or vanish. -/
def exponentEnd : Nat := UInt32.size / 2

namespace Numeral

/-- The value of a number that has a fraction, an exponent or more digits than 64 bits hold. -/
def magnitude (numeral : Numeral) : Except TextError Float :=
  let (significand, left) := gather numeral.whole 0
  let digits := numeral.fraction.getD []
  let (significand, ignored) := gather digits significand
  -- A whole digit that did not fit counts as a place; one behind the point does not count at all.
  let exponent : Int := (left.length : Int) - ((digits.length : Int) - ignored.length)
  match numeral.exponent with
  | none => scale significand exponent
  | some (down, places) =>
    let places := Decimal.ofDigits places
    if exponentEnd ≤ places then
      if significand ≠ 0 ∧ !down then .error .grammar else .ok 0
    else scale significand (if down then exponent - places else exponent + places)

/-- The value of a number; negative zero and integers that are too large are in double precision. -/
def value (numeral : Numeral) : Except TextError Number := do
  let (significand, left) := gather numeral.whole 0
  -- Only a numeral of nothing but digits that all fit is an integer.
  if numeral.fraction.isNone ∧ numeral.exponent.isNone ∧ left.isEmpty then
    if !numeral.negative then pure (.natural significand)
    else if significand = 0 ∨ UInt64.size / 2 < significand then
      pure (.real (-significand.toUInt64.toFloat))
    else pure (.negative significand)
  else
    let magnitude ← numeral.magnitude
    pure (.real (if numeral.negative then -magnitude else magnitude))

end Numeral

/-- A number, of which the text may end early. -/
def number : Parser Number := do
  let numeral ← numeral .ending
  match numeral.value with
  | .ok value => pure value
  | .error error => throw error

/-- What is expected next while a value is passed. -/
inductive Expected where
  | value
  /-- The first item of a container, or its end. -/
  | first
  /-- A comma or the end of a container. -/
  | more

/-- Passes a name and the colon behind it. -/
def passName : Parser Unit := do
  match ← peek with
  | some '"' =>
    let _ ← string false
    match ← peek with
    | some ':' => pass
    | some _ => throw .grammar
    | none => throw .ending
  | some _ => throw .grammar
  | none => throw .ending

/-- Passes a value that is no container; a number has to be complete even where the text ends. -/
def passScalar : Parser Unit := do
  match ← peek with
  | none => throw .ending
  -- A word is known by its first character.
  | some 'n' => word "null".toList
  | some 't' => word "true".toList
  | some 'f' => word "false".toList
  | some '"' => let _ ← string false
  | some c =>
    if c = '-' || c.isDigit then let _ ← numeral .grammar
    else throw .grammar

/-- Passes a value and all it contains. The open containers are listed, innermost first, by their
closing characters, and every two steps pass a character. -/
def passFrom : (steps : Nat) → Expected → (closers : List Char) → Parser Unit
  | 0, _, _ => throw .ending
  | steps + 1, .value, closers => do
    match ← peek with
    | some '[' => pass; passFrom steps .first (']' :: closers)
    | some '{' => pass; passFrom steps .first ('}' :: closers)
    | _ => passScalar; passFrom steps .more closers
  | _ + 1, .more, [] => pure ()
  | _ + 1, .first, [] => pure ()
  | steps + 1, expected, closer :: closers => do
    match ← peek with
    | none => throw .ending
    | some c =>
      if c = closer then pass; passFrom steps .more closers
      else
        match expected with
        | .more => if c = ',' then pass else throw .grammar
        | _ => pure ()
        -- An item of an object stands behind its name.
        if closer = '}' then passName
        passFrom steps .value (closer :: closers)

/-- Passes any value. -/
def passValue : Parser Unit := fun text => passFrom (2 * text.length + 2) .value [] text

end Mixdown.Json
