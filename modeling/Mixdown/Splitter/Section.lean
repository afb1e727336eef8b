import Mixdown.Biquad
import Mixdown.Revision

/-! The records of a splitter section: a header, the splitters and their destinations. -/

namespace Mixdown.Splitter

/-- The volumes of a destination, one for each mix buffer. -/
def maxVolumes : Nat := 24

/-- The filters of a destination. -/
def maxFilters : Nat := 2

/-- The magic of a section header. -/
def headerMagic : UInt32 := fourCharacters 'S'.toUInt8 'N'.toUInt8 'D'.toUInt8 'H'.toUInt8

/-- The magic of a splitter record. -/
def splitterMagic : UInt32 := fourCharacters 'S'.toUInt8 'N'.toUInt8 'D'.toUInt8 'I'.toUInt8

/-- The magic of a destination record. -/
def destinationMagic : UInt32 := fourCharacters 'S'.toUInt8 'N'.toUInt8 'D'.toUInt8 'D'.toUInt8

/-- The bytes that sections are rounded up to. -/
def sectionAlignment : Nat := 0x10

/-- The head of a section, which says how many records follow. -/
structure Header where
  magic : UInt32
  splitters : Int32
  destinations : Int32
  reserved : Bytes
  deriving DecidableEq, Repr

/-- The fixed part of a splitter record, before the identifiers of its destinations. -/
structure SplitterRecord where
  magic : UInt32
  id : Int32
  rate : UInt32
  /-- The number of identifiers that follow. -/
  count : UInt32
  deriving DecidableEq, Repr

/-- A destination record, which carries filters in the newer of its two layouts only. -/
structure DestinationRecord where
  magic : UInt32
  id : Int32
  volumes : Vector Single maxVolumes
  mixId : UInt32
  filters : Option (Vector Biquad.FloatCoefficients maxFilters)
  inUse : UInt8
  resetPrevious : UInt8
  reserved : Bytes
  deriving DecidableEq, Repr

/-- The bytes of a header. -/
def Header.size : Nat := 0x20

/-- The bytes of the fixed part of a splitter record. -/
def SplitterRecord.size : Nat := 0x10

/-- The bytes of an identifier. -/
def identifierSize : Nat := 4

/-- The bytes of a destination record, with or without filters. -/
def DestinationRecord.size (filtered : Bool) : Nat := if filtered then 0xA8 else 0x70

/-- The bytes without meaning at the end of a destination record. -/
def DestinationRecord.reservedSize (filtered : Bool) : Nat := if filtered then 10 else 2

namespace Header

/-- The bytes of a header. -/
def encode (header : Header) : Bytes :=
  .ofUInt32 header.magic ++ .ofInt32 header.splitters ++ .ofInt32 header.destinations ++
    header.reserved

/-- Reads a header. -/
def reader : Reader Header := do
  let magic ← Reader.uint32
  let splitters ← Reader.int32
  let destinations ← Reader.int32
  let reserved ← Reader.bytes 0x14
  pure { magic, splitters, destinations, reserved }

end Header

namespace SplitterRecord

/-- The bytes of a splitter record. -/
def encode (record : SplitterRecord) : Bytes :=
  .ofUInt32 record.magic ++ .ofInt32 record.id ++ .ofUInt32 record.rate ++
    .ofUInt32 record.count

/-- Reads the fixed part of a splitter record. -/
def reader : Reader SplitterRecord := do
  let magic ← Reader.uint32
  let id ← Reader.int32
  let rate ← Reader.uint32
  let count ← Reader.uint32
  pure { magic, id, rate, count }

end SplitterRecord

/-- The identifiers at the front of a byte string, at most as many as asked for. -/
def identifiers : (count : Nat) → Bytes → List Nat
  | 0, _ => []
  | count + 1, bytes =>
    -- Bytes that hold no whole identifier end the list early.
    match Reader.uint32 bytes with
    | none => []
    | some (id, rest) => id.toNat :: identifiers count rest

namespace DestinationRecord

/-- The bytes of a destination record. -/
def encode (record : DestinationRecord) : Bytes :=
  let filters : Bytes :=
    match record.filters with
    | none => []
    | some filters => .ofVector Biquad.FloatCoefficients.encode filters
  .ofUInt32 record.magic ++ .ofInt32 record.id ++ .ofVector .ofSingle record.volumes ++
    .ofUInt32 record.mixId ++ filters ++ [record.inUse] ++ [record.resetPrevious] ++
    record.reserved

/-- Reads a destination record in the layout with or without filters. -/
def reader (filtered : Bool) : Reader DestinationRecord := do
  let magic ← Reader.uint32
  let id ← Reader.int32
  let volumes ← Reader.vector .single maxVolumes
  let mixId ← Reader.uint32
  -- The older layout goes on at once behind the mix.
  let filters ←
    if filtered then some <$> Reader.vector Biquad.FloatCoefficients.reader maxFilters
    else pure none
  let inUse ← Reader.uint8
  let resetPrevious ← Reader.uint8
  let reserved ← Reader.bytes (reservedSize filtered)
  pure { magic, id, volumes, mixId, filters, inUse, resetPrevious, reserved }

end DestinationRecord

end Mixdown.Splitter
