import Mixdown.Signal.Word

/-! Little-endian numbers and fixed layouts in byte strings. -/

namespace Mixdown

/-- A string of bytes. -/
abbrev Bytes := List UInt8

/-- Four characters as one number, the first in the lowest byte. -/
def fourCharacters (a b c d : UInt8) : UInt32 :=
  a.toUInt32 ||| b.toUInt32 <<< 8 ||| c.toUInt32 <<< 16 ||| d.toUInt32 <<< 24

namespace Bytes

/-- The two bytes of a number, lowest first. -/
def ofUInt16 (value : UInt16) : Bytes := [value.toUInt8, (value >>> 8).toUInt8]

/-- The four bytes of a number, lowest first. -/
def ofUInt32 (value : UInt32) : Bytes :=
  [value.toUInt8, (value >>> 8).toUInt8, (value >>> 16).toUInt8, (value >>> 24).toUInt8]

/-- The eight bytes of a number, lowest first. -/
def ofUInt64 (value : UInt64) : Bytes :=
  ofUInt32 value.toUInt32 ++ ofUInt32 (value >>> 32).toUInt32

/-- The byte of a signed number. -/
def ofInt8 (value : Int8) : Bytes := [value.toUInt8]

/-- The two bytes of a signed number. -/
def ofInt16 (value : Int16) : Bytes := ofUInt16 value.toUInt16

/-- The four bytes of a signed number. -/
def ofInt32 (value : Int32) : Bytes := ofUInt32 value.toUInt32

/-- The four bytes of a floating-point pattern. -/
def ofSingle (value : Single) : Bytes := ofUInt32 value.bits

/-- The bytes of a fixed number of items, one behind the other. -/
def ofVector (write : α → Bytes) (items : Vector α n) : Bytes := items.toList.flatMap write

/-- Zero bytes. -/
def zeros (count : Nat) : Bytes := List.replicate count 0

/-- The bytes followed by zeros up to a length. -/
def padTo (length : Nat) (bytes : Bytes) : Bytes := bytes ++ zeros (length - bytes.length)

end Bytes

/-- A reader takes a value off the front of a byte string, or finds it too short. -/
abbrev Reader (α : Type) := StateT Bytes Option α

namespace Reader

/-- One byte. -/
def uint8 : Reader UInt8
  | byte :: rest => some (byte, rest)
  | [] => none

/-- A number of two bytes. -/
def uint16 : Reader UInt16 := do
  let low ← uint8
  let high ← uint8
  pure (low.toUInt16 ||| high.toUInt16 <<< 8)

/-- A number of four bytes. -/
def uint32 : Reader UInt32 := do
  let a ← uint8
  let b ← uint8
  let c ← uint8
  let d ← uint8
  pure (a.toUInt32 ||| b.toUInt32 <<< 8 ||| c.toUInt32 <<< 16 ||| d.toUInt32 <<< 24)

/-- A number of eight bytes. -/
def uint64 : Reader UInt64 := do
  let low ← uint32
  let high ← uint32
  pure (low.toUInt64 ||| high.toUInt64 <<< 32)

/-- A run of bytes of the given length. -/
def bytes (length : Nat) : Reader Bytes := fun input =>
  -- The front is cut first, and is too short when the input is.
  let front := input.take length
  if front.length = length then some (front, input.drop length) else none

/-- A signed number of one byte. -/
def int8 : Reader Int8 := UInt8.toInt8 <$> uint8

/-- A signed number of two bytes. -/
def int16 : Reader Int16 := UInt16.toInt16 <$> uint16

/-- A signed number of four bytes. -/
def int32 : Reader Int32 := UInt32.toInt32 <$> uint32

/-- A floating-point pattern of four bytes. -/
def single : Reader Single := Single.mk <$> uint32

/-- A fixed number of items, one behind the other. -/
def vector (item : Reader α) : (n : Nat) → Reader (Vector α n)
  | 0 => pure #v[]
  | n + 1 => do
    -- All items but the last come first, so that the last one is pushed behind them.
    let items ← vector item n
    let last ← item
    pure (items.push last)

/-- The value at the front of a byte string, what follows being ignored. -/
def front? (reader : Reader α) (bytes : Bytes) : Option α := (·.1) <$> reader bytes

end Reader

end Mixdown
