import Mixdown.Biquad
import Mixdown.Compressor
import Mixdown.Error

/-! The commands of a frame, and the mixer that runs them on its arena and filter states. -/

namespace Mixdown

/-- Where a guest's parameters stand in their passage to the signal processor. -/
inductive Phase where
  | initialized
  | updating
  | updated
  deriving DecidableEq, Repr

namespace Phase

/-- The phase that a byte stands for, if it stands for one. -/
def ofByte? : UInt8 → Option Phase
  | 0 => some .initialized
  | 1 => some .updating
  | 2 => some .updated
  | _ => none

/-- The byte that stands for a phase. -/
def toByte : Phase → UInt8
  | .initialized => 0
  | .updating => 1
  | .updated => 2

/-- Every phase is the one that its byte stands for. -/
@[simp] theorem ofByte?_toByte (phase : Phase) : ofByte? phase.toByte = some phase := by
  cases phase <;> rfl

end Phase

/-- The states of all filters and effects; states are added but never removed. -/
structure States where
  biquad : Array Biquad.State
  limiter : Array Limiter.State
  compressor : Array Compressor.State
  deriving DecidableEq, Repr

/-- Tables without any state. -/
def States.empty : States := ⟨#[], #[], #[]⟩

/-- The place of a state, which is added to its table when it has none yet. -/
def allot (state : Option Nat) (fresh : α) (table : Array α) : Nat × Array α :=
  match state with
  | some place => (place, table)
  -- States are never removed, so that the next place is as far as the table reaches.
  | none => (table.size, table.push fresh)

/-- What commands run on. -/
structure Mixer where
  arena : Arena
  /-- The samples of a frame, which may differ from the arena's own shape. -/
  frame : Nat
  /-- The sample rate in hertz. -/
  rate : Nat
  states : States
  deriving DecidableEq, Repr

/-- The sample rate that effects are made for. -/
def defaultRate : Nat := 48000

/-- The filtering of one mix buffer into another. -/
structure BiquadCommand where
  input : Int16
  /-- A negative output stands for the input. -/
  output : Int16
  coefficients : Biquad.Coefficients
  floatCoefficients : Biquad.FloatCoefficients
  /-- The place of the state in its table. -/
  state : Option Nat
  /-- The state is cleared before the filter runs. -/
  reset : Bool
  /-- The filter runs in double precision. -/
  double : Bool
  /-- In double precision the floating-point coefficients are taken. -/
  floatTaken : Bool
  deriving DecidableEq, Repr

/-- The limiting of some mix buffers into others. -/
structure LimiterCommand where
  parameters : Limiter.Parameters
  inputs : Vector Int16 maxChannels
  outputs : Vector Int16 maxChannels
  state : Option Nat
  enabled : Bool
  deriving DecidableEq, Repr

/-- The compression of some mix buffers into others. -/
structure CompressorCommand where
  parameters : Compressor.Parameters
  inputs : Vector Int16 maxChannels
  outputs : Vector Int16 maxChannels
  state : Option Nat
  enabled : Bool
  deriving DecidableEq, Repr

/-- A command of a frame. -/
inductive Command where
  | biquad (command : BiquadCommand)
  | limiter (command : LimiterCommand)
  | compressor (command : CompressorCommand)
  deriving DecidableEq, Repr

/-- How many commands of a list ran and how many were skipped. -/
structure Report where
  processed : Nat
  skipped : Nat
  deriving DecidableEq, Repr

/-- The upper-case digits of an index's sixteen bits, at least two. -/
def indexDigits (index : Int16) : String :=
  let digits := (Nat.toDigits 16 index.toUInt16.toNat).map Char.toUpper
  String.ofList (List.replicate (2 - digits.length) '0' ++ digits)

namespace Mixer

/-- A mixer with silent buffers and no states. -/
def create (buffers frame : Nat) : Except Fault Mixer := do
  pure { arena := ← Arena.create buffers frame, frame, rate := defaultRate, states := .empty }

/-- The segment of a buffer; a negative index or one beyond the arena has none. -/
def segment? (mixer : Mixer) (index : Int16) : Option Segment :=
  -- The frame's length decides where buffers begin, whatever the arena was made for.
  if index < 0 then none else mixer.arena.segment? index.toInt.toNat mixer.frame

/-- The segments of the first channels, unless one of them lies outside the arena. -/
def routes? (mixer : Mixer) (channels : Nat) (inputs outputs : Vector Int16 maxChannels) :
    Option (List Route) :=
  -- One channel that is missing takes all others with it.
  ((inputs.toList.zip outputs.toList).take channels).mapM fun (input, output) => do
    let input ← mixer.segment? input
    let output ← mixer.segment? output
    pure { input, output }

end Mixer

namespace Arena

/-- Copies every input segment to its output, in order. -/
def copyRoutes : (arena : Arena) → List Route → Except Fault Arena
  | arena, [] => .ok arena
  | arena, route :: routes => do
    -- A later route reads what an earlier one has written.
    let arena ← arena.splice route.output.start (arena.slice route.input)
    copyRoutes arena routes

end Arena

namespace BiquadCommand

/-- The segments the filter reads and writes, if it can run at all. -/
def route? (command : BiquadCommand) (mixer : Mixer) : Option Route :=
  if command.input < 0 ∨ mixer.frame = 0 then none
  else do
    -- Without an output the filter writes where it reads.
    let output := if command.output < 0 then command.input else command.output
    let input ← mixer.segment? command.input
    let output ← mixer.segment? output
    pure { input, output }

/-- Whether the command has a live state and both of its segments. -/
def verify (command : BiquadCommand) (mixer : Mixer) : Bool :=
  (command.state.bind (mixer.states.biquad[·]?)).isSome && (command.route? mixer).isSome

/-- Filters samples by the kernel that the command names. -/
def filter (command : BiquadCommand) (state : Biquad.State) (samples : List Int32) :
    Except Fault (Biquad.State × List Int32) :=
  match command.double, command.floatTaken with
  -- Integer arithmetic knows no other coefficients than its own.
  | false, _ => Biquad.applyInteger command.coefficients state samples
  | true, false => Biquad.applyWidened command.coefficients state samples
  | true, true => Biquad.applyFloat command.floatCoefficients state samples

/-- Runs the filter; a live state is cleared on request even when the segments are missing. -/
def process (command : BiquadCommand) (mixer : Mixer) : Except Fault Mixer :=
  match command.state with
  | none => .ok mixer
  | some handle =>
    match mixer.states.biquad[handle]? with
    | none => .ok mixer
    | some held => do
      let state := if command.reset then .initial else held
      let keep (state : Biquad.State) : States :=
        { mixer.states with biquad := mixer.states.biquad.setIfInBounds handle state }
      match command.route? mixer with
      -- The reset is not undone, although nothing is filtered.
      | none => pure { mixer with states := keep state }
      | some route =>
        let (state, samples) ← command.filter state (mixer.arena.slice route.input)
        let arena ← mixer.arena.splice route.output.start samples
        pure { mixer with arena, states := keep state }

/-- The text that describes the command. -/
def describe (command : BiquadCommand) : String :=
  s!"BiquadFilterCommand\n\tinput {indexDigits command.input} output " ++
  s!"{indexDigits command.output} needs_init {command.reset} " ++
  s!"use_float_processing {command.double}\n"

end BiquadCommand

namespace LimiterCommand

/-- The number of channels that the command works on. -/
def channels (command : LimiterCommand) : Nat :=
  min command.parameters.channels.toNat maxChannels

/-- Limits or copies the channels; without all segments, or without a state to limit by, nothing. -/
def process (command : LimiterCommand) (mixer : Mixer) : Except Fault Mixer :=
  match mixer.routes? command.channels command.inputs command.outputs with
  | none => .ok mixer
  | some routes =>
    -- Copying needs no state, so a limiter that never ran can still pass its channels on.
    if !command.enabled then do
      pure { mixer with arena := ← mixer.arena.copyRoutes routes }
    else
      match command.state.bind fun handle => (mixer.states.limiter[handle]?).map (handle, ·) with
      | none => .ok mixer
      | some (handle, state) => do
        let (state, samples) ←
          Limiter.apply command.parameters mixer.rate routes mixer.frame state mixer.arena.samples
        let limiter := mixer.states.limiter.setIfInBounds handle state
        pure { mixer with
               arena := { mixer.arena with samples }
               states := { mixer.states with limiter } }

/-- The text that describes the command. -/
def describe (command : LimiterCommand) : String :=
  s!"LimiterCommand\n\tenabled {command.enabled} channels {command.parameters.channels}\n"

end LimiterCommand

namespace CompressorCommand

/-- The number of channels that the command works on. -/
def channels (command : CompressorCommand) : Nat :=
  min command.parameters.channels.toInt.toNat maxChannels

/-- The state that a run begins with, as the phase of the parameters asks. -/
def prepare (command : CompressorCommand) (state : Compressor.State) : Compressor.State :=
  match Phase.ofByte? command.parameters.phase with
  | some .initialized => .initial command.parameters
  | some .updating => state.configure command.parameters
  -- An unknown phase asks for nothing.
  | some .updated | none => state

/-- Compresses or copies the channels; without all segments, or without a state, nothing. -/
def process (command : CompressorCommand) (mixer : Mixer) : Except Fault Mixer :=
  match mixer.routes? command.channels command.inputs command.outputs with
  | none => .ok mixer
  | some routes =>
    if !command.enabled then do
      pure { mixer with arena := ← mixer.arena.copyRoutes routes }
    else
      match command.state.bind fun handle =>
          (mixer.states.compressor[handle]?).map (handle, ·) with
      | none => .ok mixer
      | some (handle, state) => do
        let (state, samples) ←
          Compressor.apply command.parameters routes mixer.frame (command.prepare state)
            mixer.arena.samples
        let compressor := mixer.states.compressor.setIfInBounds handle state
        pure { mixer with
               arena := { mixer.arena with samples }
               states := { mixer.states with compressor } }

/-- The indices of all channels, each followed by a comma. -/
def describeIndices (indices : Vector Int16 maxChannels) : String :=
  indices.toList.foldl (fun text index => text ++ indexDigits index ++ ", ") ""

/-- The text that describes the command. -/
def describe (command : CompressorCommand) : String :=
  s!"CompressorCommand\n\tenabled {command.enabled}\n\tinputs: " ++
  s!"{describeIndices command.inputs}\n\toutputs: {describeIndices command.outputs}\n"

end CompressorCommand

namespace Command

/-- Whether the command can run; a command that cannot is skipped for the frame. -/
def verify (command : Command) (mixer : Mixer) : Bool :=
  match command with
  | .biquad command => command.verify mixer
  -- Effects on several channels see for themselves whether they can run.
  | .limiter _ | .compressor _ => true

/-- Runs the command. -/
def process (command : Command) (mixer : Mixer) : Except Fault Mixer :=
  match command with
  | .biquad command => command.process mixer
  | .limiter command => command.process mixer
  | .compressor command => command.process mixer

/-- The text that describes the command. -/
def describe : Command → String
  | .biquad command => command.describe
  | .limiter command => command.describe
  | .compressor command => command.describe

end Command

namespace Mixer

/-- Runs commands in order, skipping those that cannot run. -/
def processFrom : (mixer : Mixer) → Report → List Command → Except Fault (Mixer × Report)
  | mixer, report, [] => .ok (mixer, report)
  | mixer, report, command :: commands =>
    -- Whether a command can run is asked when its turn comes, on what those before it have left.
    if command.verify mixer then do
      let mixer ← command.process mixer
      processFrom mixer { report with processed := report.processed + 1 } commands
    else processFrom mixer { report with skipped := report.skipped + 1 } commands

/-- Runs a command list. -/
def process (mixer : Mixer) (commands : List Command) : Except Fault (Mixer × Report) :=
  processFrom mixer ⟨0, 0⟩ commands

/-- Runs every command of a list, whether it can run or not. -/
def processAll : (mixer : Mixer) → List Command → Except Fault Mixer
  | mixer, [] => .ok mixer
  | mixer, command :: commands => do
    let mixer ← command.process mixer
    processAll mixer commands

end Mixer

end Mixdown
