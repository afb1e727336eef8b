import Mixdown.Effect.Record
import Mixdown.Memory

/-! Effect slots: what the guest has asked of an effect, and the commands that carry it out. -/

namespace Mixdown.Effect

/-- What effects of every kind keep. -/
structure Base where
  mixId : Int32
  order : UInt32
  enabled : Bool
  usage : Usage
  /-- The address of the work buffer, zero when it is not mapped. -/
  workBuffer : Nat
  deriving DecidableEq, Repr

namespace Base

/-- The base of an effect that no record has described yet. -/
def new : Base := ⟨0, 0, false, .new, 0⟩

/-- The base after a record. -/
def receive (base : Base) (record : Record) : Base :=
  { base with
    mixId := record.mixId
    order := record.order
    enabled := record.enabled ≠ 0 }

/-- The base with the work buffer of a record. -/
def mapWorkBuffer (base : Base) (record : Record) (map : AddressMap) : Except Fault Base := do
  -- A buffer that no pool holds is recorded by the address that stands for none.
  let address ← map.locate record.workBuffer.toNat record.workBufferSize.toNat
  pure { base with workBuffer := address.getD 0 }

/-- The base after a frame, when the guest learns whether the effect is enabled. -/
def advance (base : Base) : Base :=
  { base with usage := if base.enabled then .enabled else .disabled }

end Base

/-- A slot that holds a biquad filter for each of its channels. -/
structure BiquadSlot where
  base : Base
  parameters : BiquadParameters
  /-- The places of the channels' states, for channels that have run. -/
  states : Vector (Option Nat) maxChannels
  deriving DecidableEq, Repr

/-- A slot that holds a limiter. -/
structure LimiterSlot where
  base : Base
  parameters : Limiter.Parameters
  state : Option Nat
  deriving DecidableEq, Repr

/-- A slot that holds a compressor. -/
structure CompressorSlot where
  base : Base
  parameters : Compressor.Parameters
  state : Option Nat
  deriving DecidableEq, Repr

/-- An effect slot. -/
inductive Slot where
  | empty
  | biquad (slot : BiquadSlot)
  | limiter (slot : LimiterSlot)
  | compressor (slot : CompressorSlot)
  deriving DecidableEq, Repr

/-- Buffer indices counted from an offset, which fault when one leaves its type. -/
def shiftIndices (indices : Vector Int8 maxChannels) (offset : Int16) :
    Except Fault (Vector Int16 maxChannels) :=
  indices.mapM fun index => checkedIndex (index.toInt + offset.toInt)

namespace BiquadSlot

/-- A slot that no record has described yet. -/
def new : BiquadSlot := ⟨.new, .zero, .replicate _ none⟩

/-- The slot after a record; parameters that are not valid are kept but disable it. -/
def receive (slot : BiquadSlot) (record : Record) (version : Version) : BiquadSlot :=
  match BiquadParameters.reader.front? record.specific with
  | none => { slot with base := { slot.base.receive record with enabled := false } }
  | some parameters =>
    let base := slot.base.receive record
    -- The filters' states stay, so that a corrected record goes on where the slot was.
    { slot with
      parameters
      base := { base with enabled := base.enabled && parameters.isValid version } }

/-- The slot after a frame; a known phase becomes the last one. -/
def advance (slot : BiquadSlot) : BiquadSlot :=
  -- An unknown byte is left as the guest wrote it.
  let phase :=
    if (Phase.ofByte? slot.parameters.phase).isSome then Phase.updated.toByte
    else slot.parameters.phase
  { slot with base := slot.base.advance, parameters := { slot.parameters with phase } }

/-- The channels in use, a count that is out of range being cut to it. -/
def channels (slot : BiquadSlot) : List (Fin maxChannels) :=
  (List.finRange maxChannels).take slot.parameters.channels.toInt.toNat

/-- The filter of one channel; an index that wraps becomes negative or names a far buffer. -/
def command (slot : BiquadSlot) (offset : Int16) (double : Bool) (channel : Fin maxChannels)
    (place : Nat) : BiquadCommand where
  input := slot.parameters.inputs[channel].toInt16 + offset
  output := slot.parameters.outputs[channel].toInt16 + offset
  coefficients := if slot.base.enabled then slot.parameters.coefficients else .passThrough
  floatCoefficients := .zero
  state := some place
  reset := slot.base.enabled && slot.parameters.phase = Phase.initialized.toByte
  double
  floatTaken := false

/-- The filters of channels in turn, with the slot and the states after each has its state. -/
def commandsFor (offset : Int16) (double : Bool) :
    List (Fin maxChannels) → BiquadSlot → Array Biquad.State →
      BiquadSlot × Array Biquad.State × List BiquadCommand
  | [], slot, table => (slot, table, [])
  | channel :: rest, slot, table =>
    let (place, table) := allot slot.states[channel] .initial table
    -- The command is made by the slot that has the place already.
    let slot := { slot with states := slot.states.set channel (some place) }
    let (after, table, commands) := commandsFor offset double rest slot table
    (after, table, slot.command offset double channel place :: commands)

/-- The filters of all channels in use. -/
def commands (slot : BiquadSlot) (offset : Int16) (double : Bool) (table : Array Biquad.State) :
    BiquadSlot × Array Biquad.State × List BiquadCommand :=
  commandsFor offset double slot.channels slot table

end BiquadSlot

namespace LimiterSlot

/-- A slot that no record has described yet. -/
def new : LimiterSlot := ⟨.new, .zero, none⟩

/-- The slot after a record, whose parameters are taken as they are. -/
def receive (slot : LimiterSlot) (record : Record) (map : AddressMap) :
    Except Fault LimiterSlot := do
  -- Parameters that cannot be read leave the old ones.
  let parameters := (Limiter.Parameters.reader.front? record.specific).getD slot.parameters
  let base ← (slot.base.receive record).mapWorkBuffer record map
  pure { slot with base, parameters }

/-- The slot after a frame. -/
def advance (slot : LimiterSlot) : LimiterSlot :=
  { slot with
    base := slot.base.advance
    parameters := { slot.parameters with phase := Phase.updated.toByte } }

/-- The frame's limiter, with the slot and the states after it has its state. -/
def command (slot : LimiterSlot) (offset : Int16) (table : Array Limiter.State) :
    Except Fault (LimiterSlot × Array Limiter.State × LimiterCommand) := do
  let (place, table) := allot slot.state .initial table
  let inputs ← shiftIndices slot.parameters.inputs offset
  let outputs ← shiftIndices slot.parameters.outputs offset
  let command : LimiterCommand :=
    { parameters := slot.parameters, inputs, outputs, state := some place,
      enabled := slot.base.enabled }
  pure ({ slot with state := some place }, table, command)

end LimiterSlot

namespace CompressorSlot

/-- A slot that no record has described yet. -/
def new : CompressorSlot := ⟨.new, .zero, none⟩

/-- The slot after a record; first records have no room for compressors and change nothing. -/
def receive (slot : CompressorSlot) (record : Record) (version : Version) (map : AddressMap) :
    Except Fault CompressorSlot :=
  match version with
  | .first => .ok slot
  | .second => do
    -- A record whose parameters cannot be read leaves the old ones.
    let parameters := (Compressor.Parameters.reader.front? record.specific).getD slot.parameters
    let base ← (slot.base.receive record).mapWorkBuffer record map
    pure { slot with base, parameters }

/-- The slot after a frame. -/
def advance (slot : CompressorSlot) : CompressorSlot :=
  { slot with
    base := slot.base.advance
    parameters :=
      { slot.parameters with phase := Phase.updated.toByte, statisticsReset := 0 } }

/-- The frame's compressor, with the slot and the states after it has its state. -/
def command (slot : CompressorSlot) (offset : Int16) (table : Array Compressor.State) :
    Except Fault (CompressorSlot × Array Compressor.State × CompressorCommand) := do
  let (place, table) := allot slot.state .zero table
  let inputs ← shiftIndices slot.parameters.inputs offset
  let outputs ← shiftIndices slot.parameters.outputs offset
  let command : CompressorCommand :=
    { parameters := slot.parameters, inputs, outputs, state := some place,
      enabled := slot.base.enabled }
  pure ({ slot with state := some place }, table, command)

end CompressorSlot

namespace Slot

/-- A new slot for a kind; kinds that are not processed leave the slot empty. -/
def create : Kind → Slot
  | .biquad => .biquad .new
  | .limiter => .limiter .new
  | .compressor => .compressor .new
  | _ => .empty

/-- The kind of effect in the slot. -/
def kind : Slot → Kind
  | .empty => .none
  | .biquad _ => .biquad
  | .limiter _ => .limiter
  | .compressor _ => .compressor

/-- What the slot keeps whatever its kind, unless it is empty. -/
def base? : Slot → Option Base
  | .empty => none
  | .biquad slot => some slot.base
  | .limiter slot => some slot.base
  | .compressor slot => some slot.base

/-- What the guest is told of the slot. -/
def usage (slot : Slot) : Usage := (slot.base?.map Base.usage).getD .invalid

/-- Whether the slot's effect is enabled. -/
def isEnabled (slot : Slot) : Bool := (slot.base?.map Base.enabled).getD false

/-- The bytes of the parameters, unless the slot is empty. -/
def parameters? : Slot → Option Bytes
  | .empty => none
  | .biquad slot => some slot.parameters.encode
  | .limiter slot => some slot.parameters.encode
  | .compressor slot => some slot.parameters.encode

/-- The place of the one state of a limiter or compressor that has run. -/
def state? : Slot → Option Nat
  | .empty | .biquad _ => none
  | .limiter slot => slot.state
  | .compressor slot => slot.state

/-- A record of another kind than the slot's replaces the slot. -/
def isReplacedBy (slot : Slot) (record : Record) : Bool :=
  -- Kinds that are not processed all count as the kind of an empty slot.
  slot.kind ≠ (create (.ofByte record.kind)).kind

/-- The slot that a record is applied to. -/
def target (slot : Slot) (record : Record) : Slot :=
  if slot.isReplacedBy record then create (.ofByte record.kind) else slot

/-- The slot after a record of its own kind. -/
def apply (slot : Slot) (record : Record) (version : Version) (map : AddressMap) :
    Except Fault Slot :=
  match slot with
  -- The kinds agree, so that the record is read as the slot's own.
  | .empty => .ok .empty
  | .biquad slot => .ok (.biquad (slot.receive record version))
  | .limiter slot => .limiter <$> slot.receive record map
  | .compressor slot => .compressor <$> slot.receive record version map

/-- The slot after a record of any kind. -/
def receive (slot : Slot) (record : Record) (version : Version) (map : AddressMap) :
    Except Fault Slot :=
  (slot.target record).apply record version map

/-- The slot after a frame. -/
def advance : Slot → Slot
  | .empty => .empty
  | .biquad slot => .biquad slot.advance
  | .limiter slot => .limiter slot.advance
  | .compressor slot => .compressor slot.advance

/-- The commands of a frame, with the slot and the states after every command has its state. -/
def generate (slot : Slot) (offset : Int16) (double : Bool) (states : States) :
    Except Fault (Slot × States × List Command) :=
  match slot with
  -- Only slots that hold an effect issue anything.
  | .empty => .ok (.empty, states, [])
  | .biquad slot =>
    let (slot, table, commands) := slot.commands offset double states.biquad
    .ok (.biquad slot, { states with biquad := table }, commands.map .biquad)
  | .limiter slot => do
    let (slot, table, command) ← slot.command offset states.limiter
    pure (.limiter slot, { states with limiter := table }, [.limiter command])
  | .compressor slot => do
    let (slot, table, command) ← slot.command offset states.compressor
    pure (.compressor slot, { states with compressor := table }, [.compressor command])

/-- The result block of a slot just created, of which only the bytes it owns are changed. -/
def beginResult (slot : Slot) (block : ResultBlock) : ResultBlock :=
  match slot with
  | .empty | .biquad _ => block
  | .limiter _ => block.overwrite Limiter.State.initial.encode
  | .compressor _ => block.overwrite Compressor.Statistics.initial.encode

/-- The result block with what the slot's state holds, if the slot has a live state. -/
def publish (slot : Slot) (states : States) (block : ResultBlock) : ResultBlock :=
  match slot with
  | .empty | .biquad _ => block
  | .limiter slot =>
    match slot.state.bind (states.limiter[·]?) with
    | none => block
    | some state => block.overwrite state.encode
  | .compressor slot =>
    match slot.state.bind (states.compressor[·]?) with
    | none => block
    | some state => block.overwrite state.statistics.encode

/-- The guest's result block after it takes over the signal processor's; an empty slot has none. -/
def share (slot : Slot) (index : Nat) (guest shared : ResultBlock) : Except Error ResultBlock :=
  match slot with
  | .empty => .error (.emptySlot index)
  -- Filters publish nothing, so the guest's block has nothing to take over.
  | .biquad _ => .ok guest
  | .limiter _ | .compressor _ => .ok shared

/-- The status record of the slot. -/
def status (slot : Slot) : Bytes := slot.usage.toByte :: Bytes.zeros 15

end Slot

end Mixdown.Effect
