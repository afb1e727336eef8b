import Mixdown.Limiter
import Mixdown.Signal.Fixed

/-! A compressor that follows the mean square of its channels and turns them down together. -/

namespace Mixdown.Compressor

/-- What the guest sets; levels are in decibels and coefficients are shares of a step. -/
structure Parameters where
  inputs : Vector Int8 maxChannels
  outputs : Vector Int8 maxChannels
  channelsMax : Int16
  channels : Int16
  rate : Int32
  threshold : Single
  ratio : Single
  attackTime : Int32
  releaseTime : Int32
  detector : Single
  release : Single
  attack : Single
  outputGain : Single
  phase : UInt8
  makeup : UInt8
  statistics : UInt8
  statisticsReset : UInt8
  reserved : Vector UInt8 8
  deriving DecidableEq, Repr, Inhabited

namespace Parameters

/-- Parameters that are all zero. -/
def zero : Parameters :=
  ⟨.replicate _ 0, .replicate _ 0, 0, 0, 0, 0, 0, 0, 0, 0, 0, 0, 0, 0, 0, 0, 0, .replicate _ 0⟩

/-- The bytes of the parameters. -/
def encode (parameters : Parameters) : Bytes :=
  .ofVector .ofInt8 parameters.inputs ++ .ofVector .ofInt8 parameters.outputs ++
    .ofInt16 parameters.channelsMax ++ .ofInt16 parameters.channels ++
    .ofInt32 parameters.rate ++ .ofSingle parameters.threshold ++
    .ofSingle parameters.ratio ++ .ofInt32 parameters.attackTime ++
    .ofInt32 parameters.releaseTime ++ .ofSingle parameters.detector ++
    .ofSingle parameters.release ++ .ofSingle parameters.attack ++
    .ofSingle parameters.outputGain ++ [parameters.phase] ++ [parameters.makeup] ++
    [parameters.statistics] ++ [parameters.statisticsReset] ++
    .ofVector (fun byte => [byte]) parameters.reserved

/-- Reads parameters. -/
def reader : Reader Parameters := do
  let inputs ← Reader.vector .int8 maxChannels
  let outputs ← Reader.vector .int8 maxChannels
  let channelsMax ← Reader.int16
  let channels ← Reader.int16
  let rate ← Reader.int32
  let threshold ← Reader.single
  let ratio ← Reader.single
  let attackTime ← Reader.int32
  let releaseTime ← Reader.int32
  let detector ← Reader.single
  let release ← Reader.single
  let attack ← Reader.single
  let outputGain ← Reader.single
  let phase ← Reader.uint8
  let makeup ← Reader.uint8
  let statistics ← Reader.uint8
  let statisticsReset ← Reader.uint8
  let reserved ← Reader.vector .uint8 8
  pure { inputs, outputs, channelsMax, channels, rate, threshold, ratio, attackTime,
         releaseTime, detector, release, attack, outputGain, phase, makeup, statistics,
         statisticsReset, reserved }

end Parameters

/-- What a compressor measures, published to the guest. -/
structure Statistics where
  maximumMean : Single
  minimumGain : Single
  lastSamples : Vector Single maxChannels
  deriving DecidableEq, Repr, Inhabited

namespace Statistics

/-- Statistics that are all zero. -/
def zero : Statistics := ⟨0, 0, .replicate _ 0⟩

/-- The statistics before any sample. -/
def initial : Statistics := ⟨0, 1, .replicate _ 0⟩

/-- The bytes of the statistics. -/
def encode (statistics : Statistics) : Bytes :=
  .ofSingle statistics.maximumMean ++ .ofSingle statistics.minimumGain ++
    .ofVector .ofSingle statistics.lastSamples

/-- Reads statistics. -/
def reader : Reader Statistics := do
  let maximumMean ← Reader.single
  let minimumGain ← Reader.single
  let lastSamples ← Reader.vector .single maxChannels
  pure { maximumMean, minimumGain, lastSamples }

end Statistics

/-- What a compressor remembers between samples, and the constants found from its parameters. -/
structure State where
  detectorAverage : Single
  gainHeld : Single
  gainSmoothed : Single
  kneeFactor : Single
  kneeLower : Single
  kneeUpper : Single
  gainSmoothing : Single
  makeupGain : Single
  outputGain : Single
  statistics : Statistics
  deriving DecidableEq, Repr, Inhabited

/-- A mean square below this counts as silence. -/
def detectorFloor : Single := 1e-10

/-- The level of silence. -/
def silenceLevel : Single := -74

/-- Half the width of the bend around the threshold. -/
def kneeHalfWidth : Single := 1.5

/-- The gain of a level, for which only the fraction of an octave is kept. -/
def octaveGain (level : Single) : Single :=
  -- Whole octaves are cut off and not put back, so the gain stays within one octave of unity.
  let octaves := level / 20 * 3.3219
  (2 : Single).pow ((octaves - octaves.truncated) * 0.69315)

namespace State

/-- A state that is all zero. -/
def zero : State := ⟨0, 0, 0, 0, 0, 0, 0, 0, 0, .zero⟩

/-- The state with its constants found anew. -/
def configure (state : State) (parameters : Parameters) : State :=
  -- The makeup gain gives back half of what full scale loses, less three decibels.
  let inverse := 1 / parameters.ratio
  let makeupGain :=
    if parameters.makeup ≠ 0 then parameters.threshold * 0.5 * (inverse - 1) - 3 else 0
  { state with
    makeupGain
    gainSmoothing := parameters.release
    outputGain := octaveGain (parameters.outputGain + makeupGain)
    kneeFactor := (1 - inverse) / 6
    kneeUpper := parameters.threshold + kneeHalfWidth
    kneeLower := parameters.threshold - kneeHalfWidth }

/-- The state of a compressor that has heard nothing. -/
def initial (parameters : Parameters) : State :=
  configure { zero with gainHeld := 1, gainSmoothed := 1, statistics := .initial } parameters

/-- The gain wanted at a level; below the knee it is the given one. -/
def staticGain (state : State) (parameters : Parameters) (level gain : Single) : Single :=
  if level < state.kneeLower then gain
  -- Within the knee the reduction bends into the line that it follows above.
  else
    let reduction :=
      if state.kneeUpper ≤ level then (1 / parameters.ratio - 1) * (level - parameters.threshold)
      else
        let excess := level - state.kneeLower
        excess * excess * -state.kneeFactor
    octaveGain reduction

/-- The state after the gain moved toward a target. -/
def smooth (state : State) (parameters : Parameters) (target : Single) : State :=
  let delta := state.gainHeld - target
  -- A small step does not move the held gain while the smoothed one still has a way to go.
  let rising : Bool := delta ≤ 0.08
  let near : Bool :=
    rising && (-0.08 : Single) ≤ delta && (0.001 : Single) ≤ (state.gainSmoothed - target).abs
  let share := if rising then parameters.attack else parameters.release
  { state with
    gainHeld := if near then state.gainHeld else target
    gainSmoothed := state.gainSmoothed + (target - state.gainSmoothed) * share }

end State

/-- The sum of the squares of the channels' samples at one instant. -/
def energy (samples : Array Int32) (instant : Nat) :
    List Route → (sum : Single) → Except Fault Single
  | [], sum => .ok sum
  | route :: routes, sum => do
    -- Products of samples are formed in fixed point.
    let sample : Fixed 15 := ⟨(← fetch samples (route.input.start + instant)).toInt64⟩
    energy samples instant routes (sum + (sample * sample).toSingle)

/-- The state after the channels had a mean square. -/
def follow (parameters : Parameters) (state : State) (mean : Single) : State :=
  let detectorAverage :=
    state.detectorAverage + parameters.detector * (mean - state.detectorAverage)
  let state := { state with detectorAverage }
  -- Silence has no logarithm, so it is given a level and a gain of its own.
  let (level, gain) : Single × Single :=
    if detectorFloor ≤ detectorAverage then (10 * detectorAverage.log10, 1) else (silenceLevel, 0)
  state.smooth parameters (state.staticGain parameters level gain)

/-- Writes one instant's scaled sample of every channel, noting the samples if asked to. -/
def scale (gain : Single) (noting : Bool) (instant : Nat) :
    (channel : Nat) → List Route → Vector Single maxChannels → Array Int32 →
      Except Fault (Vector Single maxChannels × Array Int32)
  | _, [], noted, samples => .ok (noted, samples)
  | channel, route :: routes, noted, samples => do
    let sample ← fetch samples (route.input.start + instant)
    let magnitude : Fixed 15 := ⟨sample.toInt64.abs⟩
    let noted := if noting then noted.setIfInBounds channel magnitude.toSingle else noted
    let samples ←
      store samples (route.output.start + instant) (Single.ofSample sample * gain).toSample
    scale gain noting instant (channel + 1) routes noted samples

/-- One instant of all channels. -/
def step (parameters : Parameters) (routes : List Route) (instant : Nat) (state : State)
    (samples : Array Int32) : Except Fault (State × Array Int32) := do
  let noting := parameters.statistics ≠ 0
  let mean := (← energy samples instant routes 0) / .ofNat routes.length
  let state := follow parameters state mean
  -- The statistics note the gain as it is applied, and the mean before it.
  let gain := state.gainSmoothed * state.outputGain
  let { maximumMean, minimumGain, lastSamples } := state.statistics
  let (lastSamples, samples) ← scale gain noting instant 0 routes lastSamples samples
  let statistics : Statistics :=
    if noting then
      { maximumMean := maximumMean.larger mean, minimumGain := minimumGain.smaller gain,
        lastSamples }
    else state.statistics
  pure ({ state with statistics }, samples)

/-- Compresses every channel over a number of instants; without channels nothing happens. -/
def apply (parameters : Parameters) (routes : List Route) (count : Nat) (state : State)
    (samples : Array Int32) : Except Fault (State × Array Int32) :=
  if routes.isEmpty then .ok (state, samples)
  else
    -- Statistics that are not gathered are not started anew either.
    let restart := parameters.statistics ≠ 0 ∧ parameters.statisticsReset ≠ 0
    let state := if restart then { state with statistics := .initial } else state
    overInstants (step parameters routes) count 0 state samples

end Mixdown.Compressor
