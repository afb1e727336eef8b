import Mixdown.Arena
import Mixdown.Bytes
import Mixdown.Signal.Level

/-! A peak limiter that turns all of its channels down together. -/

namespace Mixdown

/-- The largest number of channels of an effect. -/
def maxChannels : Nat := 6

/-- The segments that one channel of an effect reads and writes. -/
structure Route where
  input : Segment
  output : Segment
  deriving DecidableEq, Repr

/-- Runs a step over a number of instants from a first one on. -/
def overInstants (step : Nat → σ → Array Int32 → Except Fault (σ × Array Int32)) :
    (count instant : Nat) → σ → Array Int32 → Except Fault (σ × Array Int32)
  | 0, _, state, samples => .ok (state, samples)
  | count + 1, instant, state, samples => do
    -- An instant is finished before the next one begins.
    let (state, samples) ← step instant state samples
    overInstants step count (instant + 1) state samples

namespace Limiter

/-- What the guest sets; times are in milliseconds and levels in decibels. -/
structure Parameters where
  inputs : Vector Int8 maxChannels
  outputs : Vector Int8 maxChannels
  channels : UInt16
  padding : UInt16
  rate : Int32
  attack : Single
  release : Single
  threshold : Single
  makeup : Single
  ratio : Single
  phase : UInt8
  enabled : UInt8
  reserved : Vector UInt8 2
  deriving DecidableEq, Repr, Inhabited

namespace Parameters

/-- Parameters that are all zero. -/
def zero : Parameters :=
  ⟨.replicate _ 0, .replicate _ 0, 0, 0, 0, 0, 0, 0, 0, 0, 0, 0, .replicate _ 0⟩

/-- The bytes of the parameters. -/
def encode (parameters : Parameters) : Bytes :=
  .ofVector .ofInt8 parameters.inputs ++ .ofVector .ofInt8 parameters.outputs ++
    .ofUInt16 parameters.channels ++ .ofUInt16 parameters.padding ++
    .ofInt32 parameters.rate ++ .ofSingle parameters.attack ++
    .ofSingle parameters.release ++ .ofSingle parameters.threshold ++
    .ofSingle parameters.makeup ++ .ofSingle parameters.ratio ++
    [parameters.phase] ++ [parameters.enabled] ++
    .ofVector (fun byte => [byte]) parameters.reserved

/-- Reads parameters. -/
def reader : Reader Parameters := do
  let inputs ← Reader.vector .int8 maxChannels
  let outputs ← Reader.vector .int8 maxChannels
  let channels ← Reader.uint16
  let padding ← Reader.uint16
  let rate ← Reader.int32
  let attack ← Reader.single
  let release ← Reader.single
  let threshold ← Reader.single
  let makeup ← Reader.single
  let ratio ← Reader.single
  let phase ← Reader.uint8
  let enabled ← Reader.uint8
  let reserved ← Reader.vector .uint8 2
  pure { inputs, outputs, channels, padding, rate, attack, release, threshold, makeup, ratio,
         phase, enabled, reserved }

end Parameters

/-- What a limiter remembers between samples, also published to the guest. -/
structure State where
  envelope : Single
  gain : Single
  peakHold : Single
  peakHoldCount : UInt32
  peaks : Vector Single maxChannels
  deriving DecidableEq, Repr, Inhabited

namespace State

/-- The state of a limiter that has heard nothing. -/
def initial : State := ⟨1, 1, 0, 0, .replicate _ 0⟩

/-- The bytes of the state. -/
def encode (state : State) : Bytes :=
  .ofSingle state.envelope ++ .ofSingle state.gain ++ .ofSingle state.peakHold ++
    .ofUInt32 state.peakHoldCount ++ .ofVector .ofSingle state.peaks

/-- Reads a state. -/
def reader : Reader State := do
  let envelope ← Reader.single
  let gain ← Reader.single
  let peakHold ← Reader.single
  let peakHoldCount ← Reader.uint32
  let peaks ← Reader.vector .single maxChannels
  pure { envelope, gain, peakHold, peakHoldCount, peaks }

end State

/-- The share of its old value that a smoothed level keeps from one sample to the next. -/
def smoothing (milliseconds : Single) (rate : Nat) : Single :=
  -- The time is brought to samples first.
  (-1 / (milliseconds * .ofNat rate / 1000)).exp

/-- The constants of a run, found from the parameters once. -/
structure Settings where
  attack : Single
  release : Single
  threshold : Single
  makeup : Single
  exponent : Single

/-- The constants for a sample rate. -/
def Parameters.settings (parameters : Parameters) (rate : Nat) : Settings where
  attack := smoothing parameters.attack rate
  release := smoothing parameters.release rate
  threshold := gainOfDecibels parameters.threshold
  makeup := gainOfDecibels parameters.makeup
  -- A ratio of one gives no exponent, and so leaves every level as it is.
  exponent := (parameters.ratio - 1) / parameters.ratio

/-- The magnitudes of the channels' samples at one instant, and the largest of them. -/
def detect (samples : Array Int32) (instant : Nat) :
    (channel : Nat) → List Route → (peaks : Vector Single maxChannels) → (peak : Single) →
      Except Fault (Vector Single maxChannels × Single)
  | _, [], peaks, peak => .ok (peaks, peak)
  | channel, route :: routes, peaks, peak => do
    let sample ← fetch samples (route.input.start + instant)
    let level := (Single.ofSample sample).abs
    -- Callers give no more routes than there are peaks, so that no level is lost.
    detect samples instant (channel + 1) routes (peaks.setIfInBounds channel level)
      (peak.larger level)

/-- The state after the channels reached a peak. -/
def follow (settings : Settings) (state : State) (peak : Single) : State :=
  -- A louder peak is followed at the attack's pace and a softer one at the release's.
  let keep := if state.envelope < peak then settings.attack else settings.release
  let envelope := keep * state.envelope + (1 - keep) * peak
  let gain :=
    if settings.threshold < envelope then
      1 / (envelope / settings.threshold).pow settings.exponent
    else 1
  { state with envelope, gain }

/-- Writes one instant's scaled sample of every channel, in channel order. -/
def scale (gain makeup : Single) (instant : Nat) :
    List Route → Array Int32 → Except Fault (Array Int32)
  | [], samples => .ok samples
  | route :: routes, samples => do
    -- An input that an earlier channel has written to is scaled a second time.
    let sample ← fetch samples (route.input.start + instant)
    let scaled := Single.ofSample sample * gain * makeup
    let samples ← store samples (route.output.start + instant) scaled.toSample
    scale gain makeup instant routes samples

/-- One instant of all channels. -/
def step (settings : Settings) (routes : List Route) (instant : Nat) (state : State)
    (samples : Array Int32) : Except Fault (State × Array Int32) := do
  -- All channels are heard before any is written, so one gain serves them all.
  let (peaks, peak) ← detect samples instant 0 routes state.peaks 0
  let state := follow settings { state with peaks } peak
  let samples ← scale state.gain settings.makeup instant routes samples
  pure (state, samples)

/-- Limits every channel over a number of instants. -/
def apply (parameters : Parameters) (rate : Nat) (routes : List Route) (count : Nat)
    (state : State) (samples : Array Int32) : Except Fault (State × Array Int32) :=
  overInstants (step (parameters.settings rate) routes) count 0 state samples

end Limiter

end Mixdown
