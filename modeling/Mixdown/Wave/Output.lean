import Mixdown.Error
import Mixdown.Wave.Format

/-! Samples of sixteen bits written as sound files. -/

namespace Mixdown.Wave

/-- The bytes of a written sample. -/
def sampleWidth : Nat := 2

/-- The largest number of channels that the plain format is written for. -/
def plainChannels : Nat := 2

/-- The places that loudspeakers have names for; channels beyond them have no place. -/
def speakers : Nat := 18

/-- The mask with a bit for the place of each channel. -/
def speakerMask (channels : Nat) : UInt32 := (1 <<< UInt32.ofNat (min channels speakers)) - 1

/-- A number that has to fit four bytes. -/
def checkedLength (value : Nat) : Except Fault UInt32 :=
  if value < UInt32.size then .ok (UInt32.ofNat value) else .error .overflow

/-- The format chunk of a file. -/
def formatChunk (format : Format) : Except Fault Bytes := do
  let { channels, rate, bits, .. } := format
  let perChannel ← checkedLength (rate.toNat * sampleWidth)
  let bytesPerSecond ← checkedLength (perChannel.toNat * channels.toNat)
  -- The size of a frame is found by division, so that a rate of zero faults.
  if rate = 0 then throw .zeroDivisor
  let frameSize := UInt16.ofNat (bytesPerSecond.toNat / rate.toNat)
  let fields : Bytes :=
    .ofUInt16 channels ++ .ofUInt32 rate ++ .ofUInt32 bytesPerSecond ++ .ofUInt16 frameSize ++
      .ofUInt16 bits
  pure <|
    if channels.toNat ≤ plainChannels then
      .ofUInt32 formatTag ++ .ofUInt32 16 ++ .ofUInt16 integerEncoding ++ fields
    else
      .ofUInt32 formatTag ++ .ofUInt32 40 ++ .ofUInt16 extendedEncoding ++ fields ++
        .ofUInt16 extensionSize ++ .ofUInt16 bits ++ .ofUInt32 (speakerMask channels.toNat) ++
        integerIdentifier

/-- The bytes of a file with interleaved samples; no other formats than integers of sixteen bits are
written. -/
def write (format : Format) (samples : List Int16) : Except Error Bytes := do
  if format.kind ≠ .integer ∨ format.bits ≠ 16 then throw (.wave .unsupported)
  let chunk ← formatChunk format
  let length ← checkedLength (samples.length * sampleWidth)
  if format.channels = 0 then throw (.fault .zeroDivisor)
  if samples.length % format.channels.toNat ≠ 0 then throw (.wave .unfinishedFrame)
  -- The file's length counts all that follows it: a tag, the format chunk and the sample chunk.
  let whole ← checkedLength (4 + chunk.length + 8 + length.toNat)
  let header : Bytes := .ofUInt32 fileTag ++ .ofUInt32 whole ++ .ofUInt32 soundTag
  let start : Bytes := .ofUInt32 dataTag ++ .ofUInt32 length
  pure (header ++ chunk ++ start ++ samples.flatMap Bytes.ofInt16)

end Mixdown.Wave
