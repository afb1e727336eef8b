import Mixdown.Error
import Mixdown.Wave.Format

/-! Sound files opened for their format, and then read for the samples as they are stored. -/

namespace Mixdown.Wave

/-- A sound file that was opened and whose samples are still to be read. -/
structure Recording where
  format : StoredFormat
  /-- The number of samples in all channels together. -/
  count : Nat
  /-- The bytes from the first sample on. -/
  bytes : Bytes
  deriving DecidableEq, Repr

/-- A reader of a file takes a value off its front, or says why it cannot. -/
abbrev Input (α : Type) := StateT Bytes (Except WaveError) α

namespace Input

/-- What a reader of bytes takes; a file that ends too early is at fault. -/
def take (reader : Reader α) : Input α := fun bytes =>
  -- A value that is cut short takes nothing.
  match reader bytes with
  | some result => .ok result
  | none => .error .input

/-- Goes on only if a condition holds. -/
def require (condition : Bool) (cause : WaveError) : Input Unit :=
  if condition then pure () else throw cause

end Input

open Input

/-- The rest of the format of plain integer samples. -/
def integerFormat (format : StoredFormat) (length : Nat) : Input StoredFormat := do
  require (length = 16 || length = 18 || length = 40) .format
  -- A longer chunk says how long its extension is, which is not looked at.
  if length ≠ 16 then
    let _ ← take .uint16
    require (format.bits = 8 || format.bits = 16 || format.bits = 24) .format
  if length = 40 then
    let _ ← take (.bytes extensionSize.toNat)
  pure format

/-- The rest of the format of plain floating-point samples. -/
def floatFormat (format : StoredFormat) (length : Nat) : Input StoredFormat := do
  require (length = 16 || length = 18) .format
  if length = 18 then
    let extension ← take .uint16
    require (extension = 0) .format
  require (format.bits = 32) .format
  pure { format with kind := .float }

/-- The rest of the extended format; bytes beyond the known ones are left in the file. -/
def extendedFormat (format : StoredFormat) (length : Nat) : Input StoredFormat := do
  require (40 ≤ length) .format
  let extension ← take .uint16
  require (extension = extensionSize) .format
  let validBits ← take .uint16
  let _ ← take .uint32
  let identifier ← take (.bytes 16)
  -- A count of zero valid bits stands for all of them.
  let bits := if validBits = 0 then format.bits else validBits
  if identifier = integerIdentifier then pure { format with bits }
  else if identifier = floatIdentifier then pure { format with bits, kind := .float }
  else throw .unsupported

/-- The format in a chunk of the given length. -/
def readFormat (length : Nat) : Input StoredFormat := do
  require (16 ≤ length) .format
  let encoding ← take .uint16
  let channels ← take .uint16
  let rate ← take .uint32
  let bytesPerSecond ← take .uint32
  let frameSize ← take .uint16
  let bits ← take .uint16
  require (channels ≠ 0) .format
  -- A frame need not be a multiple of its channels; what is left over is dropped.
  let width := frameSize.toNat / channels.toNat
  require (width * 8 < UInt16.size && bits.toNat ≤ width * 8) .format
  require (bytesPerSecond.toNat = frameSize.toNat * rate.toNat) .format
  require (bits % 8 = 0 && bits ≠ 0) .format
  let format := { channels, rate, bits, kind := .integer, width }
  if encoding = integerEncoding then integerFormat format length
  else if encoding = floatEncoding then floatFormat format length
  else if encoding = extendedEncoding then extendedFormat format length
  else throw .unsupported

/-- Passes chunks up to the samples, with the latest format and the bytes that the samples take.
Every chunk takes bytes, so that there are no more chunks than bytes. -/
def findSamples : (most : Nat) → (format : Option StoredFormat) → Input (StoredFormat × Nat)
  | 0, _ => throw .input
  | most + 1, format => do
    let tag ← take .uint32
    let length ← UInt32.toNat <$> take .uint32
    if tag = formatTag then
      let format ← readFormat length
      findSamples most (some format)
    else if tag = countTag then
      -- The count is not needed, so that it may be cut short, and no more than it is passed.
      modify (·.drop 4)
      findSamples most format
    else if tag = dataTag then
      match format with
      | some format => pure (format, length)
      | none => throw .format
    else
      let _ ← take (.bytes length)
      findSamples most format

/-- A number of four bytes of which the lower three hold a signed value. -/
def lowThreeBytes (word : UInt32) : Int32 := (word <<< 8).toInt32 >>> 8

/-- A signed number of three bytes. -/
def int24 : Reader Int32 := do
  let low ← Reader.uint16
  let high ← Reader.uint8
  pure (lowThreeBytes (low.toUInt32 ||| high.toUInt32 <<< 16))

/-- The reason why samples of some bytes cannot be read. -/
def sampleError (width : Nat) : WaveError := if 4 < width then .tooWide else .unsupported

/-- The reader of one integer sample, for the formats that are supported. -/
def integerReader (format : StoredFormat) : Except WaveError (Reader Int32) :=
  match format.width, format.bits.toNat with
  -- Samples of one byte are written without sign, around the middle of the byte's range.
  | 1, 8 => .ok ((fun byte => (byte - 128).toInt8.toInt32) <$> Reader.uint8)
  | 2, 16 => .ok (Int16.toInt32 <$> Reader.int16)
  | 3, 24 => .ok int24
  | 4, 24 => .ok (lowThreeBytes <$> Reader.uint32)
  | 4, 32 => .ok Reader.int32
  | width, _ => .error (sampleError width)

/-- The reader of one floating-point sample, for the formats that are supported. -/
def singleReader (format : StoredFormat) : Except WaveError (Reader Single) :=
  match format.width, format.bits.toNat with
  | 4, 32 => .ok Reader.single
  | width, _ => .error (sampleError width)

/-- Reads a number of samples behind those in `seen`, which are listed latest first. -/
def samplesFrom (reader : Reader α) : (count : Nat) → Bytes → (seen : List α) →
    Except WaveError (List α)
  | 0, _, seen => .ok seen.reverse
  | count + 1, bytes, seen =>
    match reader bytes with
    | none => .error .input
    | some (sample, rest) => samplesFrom reader count rest (sample :: seen)

namespace Recording

/-- The samples of a recording; a format that is not supported matters only if there are any. -/
def samples (recording : Recording) (readerOf : StoredFormat → Except WaveError (Reader α)) :
    Except WaveError (List α) := do
  if recording.count = 0 then return []
  let reader ← readerOf recording.format
  samplesFrom reader recording.count recording.bytes []

/-- The samples of a recording of integers, as they are stored. -/
def integers (recording : Recording) : Except WaveError (List Int32) :=
  recording.samples integerReader

/-- The samples of a recording of floating-point numbers, as they are stored. -/
def singles (recording : Recording) : Except WaveError (List Single) :=
  recording.samples singleReader

end Recording

/-- What stands in a file up to the samples, which are left to be read. -/
def readHeader : Input Recording := do
  let file ← take .uint32
  require (file = fileTag) .format
  let _ ← take .uint32
  let sound ← take .uint32
  require (sound = soundTag) .format
  let (format, length) ← findSamples ((← get).length + 1) none
  require (length % format.width = 0) .format
  let count := length / format.width
  require (count % format.channels.toNat = 0) .format
  pure { format, count, bytes := ← get }

/-- The recording in a file with some bytes. -/
def openFile (bytes : Bytes) : Except WaveError Recording := do
  let (recording, _) ← readHeader bytes
  pure recording

end Mixdown.Wave
