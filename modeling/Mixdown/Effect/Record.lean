import Mixdown.Command

/-! The fixed records in which a guest describes its effects, and the blocks that answer them. -/

namespace Mixdown.Effect

/-- The kinds of effect that a record can name. -/
inductive Kind where
  | none
  | mix
  | aux
  | delay
  | reverb
  | spatialReverb
  | biquad
  | lightLimiter
  | capture
  | compressor
  | limiter
  deriving DecidableEq, Repr

namespace Kind

/-- The kind that a byte names; an unknown byte names none. -/
def ofByte : UInt8 → Kind
  | 1 => .mix
  | 2 => .aux
  | 3 => .delay
  | 4 => .reverb
  | 5 => .spatialReverb
  | 6 => .biquad
  | 7 => .lightLimiter
  | 8 => .capture
  | 9 => .compressor
  | 10 => .limiter
  | _ => .none

/-- The byte that names a kind. -/
def toByte : Kind → UInt8
  | .none => 0
  | .mix => 1
  | .aux => 2
  | .delay => 3
  | .reverb => 4
  | .spatialReverb => 5
  | .biquad => 6
  | .lightLimiter => 7
  | .capture => 8
  | .compressor => 9
  | .limiter => 10

/-- Every kind is the one that its byte names. -/
@[simp] theorem ofByte_toByte (kind : Kind) : ofByte kind.toByte = kind := by
  cases kind <;> rfl

end Kind

/-- What the guest is told of a slot. -/
inductive Usage where
  | invalid
  | new
  | enabled
  | disabled
  deriving DecidableEq, Repr

/-- The byte that tells a usage. -/
def Usage.toByte : Usage → UInt8
  | .invalid => 0
  | .new => 1
  | .enabled => 2
  | .disabled => 3

/-- The two layouts of effect records. -/
inductive Version where
  | first
  | second
  deriving DecidableEq, Repr

/-- The bytes of a record that belong to its kind. -/
def specificSize : Nat := 0xA0

/-- The bytes of a record. -/
def recordSize : Nat := 0xC0

/-- The bytes of a result block. -/
def resultSize : Nat := 0x80

/-- A guest's description of one effect. -/
structure Record where
  kind : UInt8
  isNew : UInt8
  enabled : UInt8
  reserved : UInt8
  mixId : Int32
  workBuffer : UInt64
  workBufferSize : UInt64
  order : UInt32
  padding : Bytes
  /-- The parameters of the kind, with bytes of no meaning behind them. -/
  specific : Bytes
  deriving DecidableEq, Repr

namespace Record

/-- An enabled record of a kind with its parameters at the front of the kind's bytes. -/
def create (kind : Kind) (order : UInt32) (parameters : Bytes) : Record where
  kind := kind.toByte
  isNew := 0
  enabled := 1
  reserved := 0
  mixId := 0
  workBuffer := 0
  workBufferSize := 0
  order
  padding := .zeros 4
  specific := .padTo specificSize parameters

/-- The bytes of a record. -/
def encode (record : Record) : Bytes :=
  [record.kind] ++ [record.isNew] ++ [record.enabled] ++ [record.reserved] ++
    .ofInt32 record.mixId ++ .ofUInt64 record.workBuffer ++ .ofUInt64 record.workBufferSize ++
    .ofUInt32 record.order ++ record.padding ++ record.specific

/-- Reads a record. -/
def reader : Reader Record := do
  let kind ← Reader.uint8
  let isNew ← Reader.uint8
  let enabled ← Reader.uint8
  let reserved ← Reader.uint8
  let mixId ← Reader.int32
  let workBuffer ← Reader.uint64
  let workBufferSize ← Reader.uint64
  let order ← Reader.uint32
  let padding ← Reader.bytes 4
  let specific ← Reader.bytes specificSize
  pure { kind, isNew, enabled, reserved, mixId, workBuffer, workBufferSize, order, padding,
         specific }

/-- The bytes of a blob that belong to the record at a place. -/
def chunk (blob : Bytes) (index : Nat) : Bytes :=
  -- A blob that ends early leaves fewer bytes than a record has.
  (blob.drop (recordSize * index)).take recordSize

/-- The record at a place in a blob, which lies in bytes of its own. -/
def at? (blob : Bytes) (index : Nat) : Option Record := reader.front? (chunk blob index)

/-- The record at a place, which is refused unless all of its bytes are there. -/
def readAt (blob : Bytes) (index : Nat) : Except Error Record :=
  match at? blob index with
  | some record => .ok record
  | none => .error (.shortParameter recordSize (chunk blob index).length)

end Record

/-- What a slot answers to the guest, kept once for each side. -/
abbrev ResultBlock := Vector UInt8 resultSize

namespace ResultBlock

/-- A block of zeros. -/
def zero : ResultBlock := .replicate _ 0

/-- The block with its front replaced. -/
def overwrite (block : ResultBlock) (front : Bytes) : ResultBlock :=
  -- Bytes behind the front stay as they are, and those beyond the block are dropped.
  let front := front.toArray
  .ofFn fun i => (front[i.val]?).getD block[i]

/-- The value that the front of a block holds. -/
def view? (block : ResultBlock) (reader : Reader α) : Option α := reader.front? block.toList

end ResultBlock

/-- What a biquad record sets. -/
structure BiquadParameters where
  inputs : Vector Int8 maxChannels
  outputs : Vector Int8 maxChannels
  coefficients : Biquad.Coefficients
  channels : Int8
  phase : UInt8
  deriving DecidableEq, Repr, Inhabited

namespace BiquadParameters

/-- Parameters that are all zero. -/
def zero : BiquadParameters := ⟨.replicate _ 0, .replicate _ 0, .zero, 0, 0⟩

/-- The bytes of the parameters. -/
def encode (parameters : BiquadParameters) : Bytes :=
  .ofVector .ofInt8 parameters.inputs ++ .ofVector .ofInt8 parameters.outputs ++
    parameters.coefficients.encode ++ .ofInt8 parameters.channels ++ [parameters.phase]

/-- Reads parameters. -/
def reader : Reader BiquadParameters := do
  let inputs ← Reader.vector .int8 maxChannels
  let outputs ← Reader.vector .int8 maxChannels
  let coefficients ← Biquad.Coefficients.reader
  let channels ← Reader.int8
  let phase ← Reader.uint8
  pure { inputs, outputs, coefficients, channels, phase }

/-- One more than the largest index of an effect's buffer. -/
def indexEnd : Int := 2 * maxChannels

/-- An index names one of the effect's buffers, or by minus one none of them. -/
def indexIsValid (index : Int8) : Bool := -1 ≤ index.toInt ∧ index.toInt < indexEnd

/-- The channel count lies between none and all. -/
def channelsAreValid (parameters : BiquadParameters) : Bool :=
  0 ≤ parameters.channels.toInt ∧ parameters.channels.toInt ≤ maxChannels

/-- The phase is one of the known ones. -/
def phaseIsValid (parameters : BiquadParameters) : Bool :=
  parameters.phase ≤ Phase.updated.toByte

/-- The indices of the first channels are valid. -/
def indicesAreValid (parameters : BiquadParameters) (channels : Nat) : Bool :=
  -- A count beyond the channels takes all indices there are.
  (parameters.inputs.toList.take channels).all indexIsValid &&
    (parameters.outputs.toList.take channels).all indexIsValid

/-- First records are checked at every index, second ones at those of the channels in use. -/
def isValid (parameters : BiquadParameters) (version : Version) : Bool :=
  parameters.channelsAreValid && parameters.phaseIsValid &&
    parameters.indicesAreValid
      (match version with
      | .first => maxChannels
      | .second => parameters.channels.toInt.toNat)

end BiquadParameters

end Mixdown.Effect
