import Mixdown.Signal.Rows
import Mixdown.Wave.Input
import Mixdown.Wave.Output

/-! Rows of samples read from sound files and written to them, on the scale of sixteen bits. -/

namespace Mixdown.Wave

/-- A sound with the format of the file it comes from. -/
structure Sound where
  format : Format
  rows : Rows
  deriving DecidableEq, Repr

/-- An integer sample brought from its own number of bits to sixteen. -/
def toSixteenBits (bits : Nat) (sample : Int32) : Int32 :=
  if 16 < bits then sample >>> Int32.ofNat (bits - 16) else sample <<< Int32.ofNat (16 - bits)

/-- A floating-point sample brought to the scale of sixteen bits. -/
def ofSingle (sample : Single) : Int32 := (sample * Rows.fullScale).rounded.toSample

/-- The nearest sample of sixteen bits. -/
def saturate (sample : Int32) : Int16 := Int16.ofIntClamp sample.toInt

/-- What a library for sound files offers. -/
structure Library where
  /-- Files that are open for reading. -/
  Opened : Type
  openFile : Bytes → Except WaveError Opened
  format : Opened → Format
  /-- The interleaved samples of a file of integers. -/
  integers : Opened → Except WaveError (List Int32)
  /-- The interleaved samples of a file of floating-point numbers. -/
  singles : Opened → Except WaveError (List Single)
  /-- The bytes of a file in a format with interleaved samples. -/
  write : Format → List Int16 → Except Error Bytes

namespace Library

/-- The sound that a library finds in a file. -/
def decode (library : Library) (bytes : Bytes) : Except WaveError Sound := do
  let file ← library.openFile bytes
  let format := library.format file
  -- Samples cannot be dealt out to no channels.
  if format.channels = 0 then throw .format
  let samples ← match format.kind with
    | .integer => List.map (toSixteenBits format.bits.toNat) <$> library.integers file
    | .float => List.map ofSingle <$> library.singles file
  pure { format, rows := .deinterleave format.channels.toNat samples }

/-- The file that a library writes with the rows of all channels, as far as the shortest goes. -/
def encode (library : Library) (rate : UInt32) (rows : Rows) : Except Error Bytes :=
  let format := { channels := .ofNat rows.length, rate, bits := 16, kind := .integer }
  library.write format (rows.interleave.map saturate)

/-- The library that reads and writes chunks. -/
def chunked : Library where
  Opened := Recording
  openFile := Wave.openFile
  format recording := recording.format.toFormat
  integers := Recording.integers
  singles := Recording.singles
  write := Wave.write

end Library

/-- The sound that a file's bytes hold. -/
def decode (bytes : Bytes) : Except WaveError Sound := Library.chunked.decode bytes

/-- The bytes of a file with the rows of all channels, as far as the shortest goes. -/
def encode (rate : UInt32) (rows : Rows) : Except Error Bytes := Library.chunked.encode rate rows

end Mixdown.Wave
