import Mixdown.Error
import Mixdown.Signal.Word

/-! Loudness of a programme: each channel is weighted, squared and averaged over moving windows. -/

namespace Mixdown.Loudness

/-- The coefficients of a second-order weighting filter. -/
structure Weighting where
  b0 : Float
  b1 : Float
  b2 : Float
  a1 : Float
  a2 : Float

/-- The two values a weighting filter remembers between samples. -/
structure Memory where
  first : Float
  second : Float

namespace Weighting

/-- The ratio of a circle's circumference to its diameter. -/
def pi : Float := 3.141592653589793

/-- A filter that gives silence, held by meters that have not been set up. -/
def silent : Weighting := ⟨0, 0, 0, 0, 0⟩

/-- The shelf that raises high frequencies by four decibels. -/
def highShelf (rate : Float) : Weighting :=
  let q : Float := 0.7071752369554193
  let k := (pi * 1681.974450955533 / rate).tan
  let vh := (10 : Float).pow (4 / 20)
  let vb := vh.pow 0.4996667741545416
  let a0 := 1 + k / q + k * k
  { b0 := (vh + vb * k / q + k * k) / a0
    b1 := 2 * (k * k - vh) / a0
    b2 := (vh - vb * k / q + k * k) / a0
    a1 := 2 * (k * k - 1) / a0
    a2 := (1 - k / q + k * k) / a0 }

/-- The filter that removes low frequencies. -/
def highPass (rate : Float) : Weighting :=
  let q : Float := 0.5003270373238773
  let k := (pi * 38.13547087602444 / rate).tan
  let a0 := 1 + k / q + k * k
  { b0 := 1 / a0
    b1 := -2 / a0
    b2 := 1 / a0
    a1 := 2 * (k * k - 1) / a0
    a2 := (1 - k / q + k * k) / a0 }

/-- One sample through the filter, with the memory it leaves and the sample that comes out. -/
def step (filter : Weighting) (memory : Memory) (x : Float) : Memory × Float :=
  -- In transposed form the filter remembers two values instead of four samples.
  let y := filter.b0 * x + memory.first
  (⟨filter.b1 * x - filter.a1 * y + memory.second, filter.b2 * x - filter.a2 * y⟩, y)

end Weighting

/-- The memories of the two filters that weight one channel. -/
structure Channel where
  shelf : Memory
  highPass : Memory

/-- A channel that has seen no sound. -/
def Channel.silent : Channel := ⟨⟨0, 0⟩, ⟨0, 0⟩⟩

/-- The largest number of channels. -/
def maxChannels : Nat := 6

/-- The highest rate a meter runs at. -/
def maxRate : Nat := 192000

/-- The channel for low-frequency effects, which does not count. -/
def effectsChannel : Nat := 3

/-- The reading of silence and of a meter that has seen no sound. -/
def silence : Single := -70

/-- The reading of a weighted mean square. -/
def reading (meanSquare : Float) : Single :=
  if meanSquare ≤ 0 then silence
  else .ofFloat (-0.691 + 10 * meanSquare.log10).toFloat32

/-- The most recent mean squares, the one counted `n`-th lying at `n` modulo the length. -/
structure Ring where
  values : Array Float

namespace Ring

/-- A ring of zeros with room for at least one value. -/
def create (length : Nat) : Ring := ⟨Array.replicate (max length 1) 0⟩

/-- The ring with all its values set to zero. -/
def clear (ring : Ring) : Ring := ⟨Array.replicate ring.values.size 0⟩

/-- The ring after one more value, `seen` having come before it. -/
def push (ring : Ring) (seen : Nat) (value : Float) : Ring :=
  -- The ring's own length decides where the value goes, and the oldest one makes room for it.
  ⟨ring.values.setIfInBounds (seen % ring.values.size) value⟩

/-- Adds `count` values to a sum in the order they came, beginning with the one counted `start`. -/
def sumFrom (ring : Ring) : (count start : Nat) → (sum : Float) → Float
  | 0, _, sum => sum
  | count + 1, start, sum =>
    sumFrom ring count (start + 1) (sum + ring.values.getD (start % ring.values.size) 0)

/-- The mean of the values inside a window that ends with the latest; zero for no values. -/
def recentMean (ring : Ring) (seen window : Nat) : Float :=
  -- Until the window is full, the mean is over what has been seen.
  let count := min (min window seen) ring.values.size
  if count = 0 then 0
  else ring.sumFrom count (seen - count) 0 / count.toUInt64.toFloat

end Ring

/-- What a meter measures and over which times, in seconds. -/
structure Parameters where
  rate : Nat := 48000
  channels : Nat := 2
  momentary : Single := 0.4
  shortTerm : Single := 3

/-- The running state of a loudness measurement. -/
structure Meter where
  parameters : Parameters
  ready : Bool
  shelf : Weighting
  highPass : Weighting
  channels : List Channel
  momentaryRing : Ring
  shortTermRing : Ring
  /-- The frames seen since the start or the last reset. -/
  seen : Nat
  /-- The sum of the mean squares of all frames seen. -/
  total : Float
  momentary : Single
  shortTerm : Single
  integrated : Single

namespace Meter

/-- A meter that has not been set up. -/
def create : Meter where
  parameters := {}
  ready := false
  shelf := .silent
  highPass := .silent
  channels := List.replicate maxChannels .silent
  momentaryRing := .create 1
  shortTermRing := .create 1
  seen := 0
  total := 0
  momentary := silence
  shortTerm := silence
  integrated := silence

/-- Forgets all sound and keeps the set-up. -/
def reset (meter : Meter) : Meter :=
  { meter with
    channels := List.replicate maxChannels .silent
    momentaryRing := meter.momentaryRing.clear
    shortTermRing := meter.shortTermRing.clear
    seen := 0
    total := 0
    momentary := silence
    shortTerm := silence
    integrated := silence }

/-- Sets the meter up, or refuses and leaves it as it was. -/
def setUp (meter : Meter) (parameters : Parameters) : Except Error Meter :=
  if parameters.channels = 0 ∨ maxChannels < parameters.channels then
    .error (.channelCount parameters.channels)
  else if parameters.rate = 0 ∨ maxRate < parameters.rate then
    .error (.sampleRate parameters.rate)
  else
    let rate := parameters.rate.toUInt64.toFloat
    .ok <| reset
      { meter with
        parameters
        shelf := .highShelf rate
        highPass := .highPass rate
        momentaryRing := .create parameters.rate
        -- The rings keep one second and three, whatever the windows are set to later.
        shortTermRing := .create (3 * parameters.rate)
        ready := true }

/-- Stops the meter until it is set up again. -/
def finalize (meter : Meter) : Meter := { meter with ready := false }

/-- Changes the momentary window of a meter that has been set up. -/
def setMomentary (meter : Meter) (seconds : Single) : Meter :=
  if meter.ready then
    { meter with parameters := { meter.parameters with momentary := seconds } }
  else meter

/-- One sample through both filters of its channel. -/
def weigh (shelf highPass : Weighting) (channel : Channel) (sample : Single) : Channel × Float :=
  -- The shelf comes first, and both filters work in double precision.
  let (shelfMemory, shelved) := shelf.step channel.shelf sample.toFloat.toFloat
  let (passMemory, weighted) := highPass.step channel.highPass shelved
  (⟨shelfMemory, passMemory⟩, weighted)

/-- One frame through the filters, with the sum of the squares of the channels that count. -/
def weighFrame (shelf highPass : Weighting) :
    (index : Nat) → List Channel → (frame : List Single) → (sum : Float) → List Channel × Float
  | index, channel :: channels, sample :: frame, sum =>
    let (channel, weighted) := weigh shelf highPass channel sample
    -- The effects channel is filtered like the others and adds nothing.
    let sum := if index = effectsChannel then sum else sum + weighted * weighted
    let (channels, sum) := weighFrame shelf highPass (index + 1) channels frame sum
    (channel :: channels, sum)
  | _, channels, _, sum => (channels, sum)

/-- Takes one frame into the history. -/
def pushFrame (meter : Meter) (frame : List Single) : Meter :=
  let (channels, sum) := weighFrame meter.shelf meter.highPass 0 meter.channels frame 0
  let meanSquare := sum / meter.parameters.channels.toUInt64.toFloat
  { meter with
    channels
    momentaryRing := meter.momentaryRing.push meter.seen meanSquare
    shortTermRing := meter.shortTermRing.push meter.seen meanSquare
    total := meter.total + meanSquare
    seen := meter.seen + 1 }

/-- Takes a number of frames of interleaved samples into the history. -/
def pushFrames : (count : Nat) → (samples : List Single) → Meter → Meter
  | 0, _, meter => meter
  | count + 1, samples, meter =>
    let width := meter.parameters.channels
    -- The frame in front is heard before those behind it.
    pushFrames count (samples.drop width) (meter.pushFrame (samples.take width))

/-- The number of frames in a window of the given seconds. -/
def window (seconds : Single) (rate : Nat) : Nat :=
  (seconds.toFloat.toFloat * rate.toUInt64.toFloat).round.toUInt64.toNat

/-- Takes the readings of the history so far. -/
def measure (meter : Meter) : Meter :=
  let { rate, momentary, shortTerm, .. } := meter.parameters
  { meter with
    momentary := reading (meter.momentaryRing.recentMean meter.seen (window momentary rate))
    shortTerm := reading (meter.shortTermRing.recentMean meter.seen (window shortTerm rate))
    integrated := reading (meter.total / meter.seen.toUInt64.toFloat) }

/-- Takes frames into the history and new readings of it; does nothing before set-up. -/
def analyze (meter : Meter) (samples : List Single) (frames : Nat) : Except Error Meter :=
  if !meter.ready then .ok meter
  else
    let want := frames * meter.parameters.channels
    let got := samples.length
    if got < want then .error (.shortBuffer want got)
    else
      let meter := pushFrames frames samples meter
      -- The integrated reading divides by the frames seen.
      .ok (if meter.seen = 0 then meter else meter.measure)

end Meter

end Mixdown.Loudness
