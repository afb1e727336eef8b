import Mixdown.Effect.Record
import Mixdown.Splitter.Section

/-! The stages of a session: effects on all of its channels in place, and the filters behind them. -/

namespace Mixdown

/-- What a limiter stage sets; times are in milliseconds and levels in decibels. -/
structure LimiterStage where
  attackTime : Single
  releaseTime : Single
  threshold : Single
  makeupGain : Single
  ratio : Single
  deriving DecidableEq, Repr

/-- What a compressor stage sets; times are in milliseconds and levels in decibels. -/
structure CompressorStage where
  threshold : Single
  ratio : Single
  attackTime : Single
  releaseTime : Single
  detectorTime : Single
  outputGain : Single
  /-- The gain that the compression takes away is given back. -/
  makeupGain : Bool
  deriving DecidableEq, Repr

/-- An effect on all channels of a session, each in place. -/
inductive Stage where
  | biquad (coefficients : Biquad.Coefficients)
  | limiter (stage : LimiterStage)
  | compressor (stage : CompressorStage)
  deriving DecidableEq, Repr

/-- A filter that runs on each channel behind the stages. -/
structure DestinationFilter where
  numerator : Vector Single 3
  /-- The feedback terms, negated. -/
  denominator : Vector Single 2
  deriving DecidableEq, Repr

/-- The enabled filter that a destination record carries. -/
def DestinationFilter.coefficients (filter : DestinationFilter) : Biquad.FloatCoefficients where
  enabled := 1
  reserved := .replicate _ 0
  numerator := filter.numerator
  denominator := filter.denominator

/-- The share of a step that a smoothed level takes at each sample, so that it has covered all but
one part in e of the way after the given milliseconds. -/
def stepShare (milliseconds : Single) (rate : Nat) : Single :=
  1 - (-1000 / (milliseconds * .ofNat rate)).exp

namespace Stage

/-- The times of a stage are positive and its ratio is at least one. -/
def isValid : Stage → Bool
  | .biquad _ => true
  | .limiter stage => 0 < stage.attackTime && 0 < stage.releaseTime && 1 ≤ stage.ratio
  | .compressor stage =>
    0 < stage.attackTime && 0 < stage.releaseTime && 0 < stage.detectorTime && 1 ≤ stage.ratio

/-- The buffers of a session's channels, which are the first ones in order. -/
def buffers (channels : Nat) : Vector Int8 maxChannels :=
  .ofFn fun i => if i.val < channels then Int8.ofNat i.val else 0

/-- The parameters of a biquad stage on a number of channels. -/
def biquadParameters (coefficients : Biquad.Coefficients) (channels : Nat) :
    Effect.BiquadParameters where
  inputs := buffers channels
  outputs := buffers channels
  coefficients
  channels := Int8.ofNat channels
  -- The first phase makes the filters start anew.
  phase := 0

/-- The parameters of a limiter stage on a number of channels. -/
def limiterParameters (stage : LimiterStage) (channels : Nat) : Limiter.Parameters :=
  { Limiter.Parameters.zero with
    inputs := buffers channels
    outputs := buffers channels
    channels := UInt16.ofNat channels
    rate := Int32.ofNat defaultRate
    attack := stage.attackTime
    release := stage.releaseTime
    threshold := stage.threshold
    makeup := stage.makeupGain
    ratio := stage.ratio
    enabled := 1 }

/-- The parameters of a compressor stage on a number of channels. -/
def compressorParameters (stage : CompressorStage) (channels : Nat) : Compressor.Parameters :=
  { Compressor.Parameters.zero with
    inputs := buffers channels
    outputs := buffers channels
    channelsMax := Int16.ofNat maxChannels
    channels := Int16.ofNat channels
    rate := Int32.ofNat defaultRate
    threshold := stage.threshold
    ratio := stage.ratio
    -- The times stand here as integers, and further down as the shares of a step they lead to.
    attackTime := stage.attackTime.toSample
    releaseTime := stage.releaseTime.toSample
    detector := stepShare stage.detectorTime defaultRate
    release := stepShare stage.releaseTime defaultRate
    attack := stepShare stage.attackTime defaultRate
    outputGain := stage.outputGain
    makeup := if stage.makeupGain then 1 else 0 }

/-- The record in which a guest describes the stage at a place in the order. -/
def record (stage : Stage) (channels order : Nat) : Effect.Record :=
  match stage with
  | .biquad coefficients =>
    .create .biquad (UInt32.ofNat order) (biquadParameters coefficients channels).encode
  | .limiter stage =>
    .create .limiter (UInt32.ofNat order) (limiterParameters stage channels).encode
  | .compressor stage =>
    .create .compressor (UInt32.ofNat order) (compressorParameters stage channels).encode

end Stage

end Mixdown
