import Mixdown.Fft
import Mixdown.Signal.Level

/-! The strongest frequencies of a signal. -/

namespace Mixdown.Spectrum

/-- The ratio of a circle's circumference to its diameter. -/
def pi : Single := 3.1415927

/-- A frequency in hertz and its level in decibels below full scale. -/
structure Peak where
  frequency : Single
  level : Single
  deriving DecidableEq, Repr

/-- A bin of a transform and the amplitude of a tone that would give it its magnitude. -/
structure Bin where
  index : Nat
  amplitude : Single
  deriving DecidableEq, Repr

/-- The sample at an index under a window of raised cosine shape. -/
def windowed (size index : Nat) (sample : Single) : Single :=
  sample * 0.5 * (1 - (2 * pi * .ofNat index / .ofNat size).cos)

/-- The bins of the lower half spectrum of the first samples, in order. -/
def bins (samples : List Single) (size : Nat) : Except Error (List Bin) := do
  if samples.length < size then throw (.request (.fewSamples size samples.length))
  let silent : Complex := ⟨0, 0⟩
  let work := Array.replicate (Fft.workSize size / Fft.elementSize) silent
  let plan ← Fft.Plan.create size .realToComplex work
  let input := (samples.take size).mapIdx fun index sample => windowed size index sample
  let output := Array.replicate (size / 2 + 1) silent
  let (_, spectrum) ← plan.realToComplex Complex.arithmetic output input.toArray size
  -- The window leaves a quarter of a tone's amplitude for each sample.
  let scale := 4 / Single.ofNat size
  pure (spectrum.toList.mapIdx fun index z => ⟨index, .hypotenuse z.re z.im * scale⟩)

/-- Bins are ranked by amplitude, the strongest first; a NaN without sign is stronger than all. -/
def Bin.precedes (first second : Bin) : Bool :=
  second.amplitude.orderKey ≤ first.amplitude.orderKey

/-- The frequency and level of a bin. -/
def Bin.peak (bin : Bin) (size rate : Nat) : Peak where
  frequency := .ofNat bin.index * .ofNat rate / .ofNat size
  level := decibelsOfGain bin.amplitude

/-- The strongest bins of the first samples, those of equal amplitude in their order. -/
def strongest (samples : List Single) (size rate count : Nat) : Except Error (List Peak) := do
  let bins ← bins samples size
  pure (((bins.mergeSort Bin.precedes).take count).map (·.peak size rate))

end Mixdown.Spectrum
