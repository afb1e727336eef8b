import Mixdown.Bytes
import Mixdown.Fault
import Mixdown.Signal.Fixed

/-! Second-order filters in integer and in floating-point arithmetic, over one kind of state. -/

namespace Mixdown.Biquad

/--
Coefficients with fourteen fractional bits. The transfer function is
`(b0 + b1 z⁻¹ + b2 z⁻²) / (1 - a0 z⁻¹ - a1 z⁻²)`, so the feedback terms are stored negated.
-/
structure Coefficients where
  b : Vector Int16 3
  a : Vector Int16 2
  deriving DecidableEq, Repr, Inhabited

/-- Coefficients in single precision, with the same signs, as destinations carry them. -/
structure FloatCoefficients where
  enabled : UInt8
  reserved : Vector UInt8 3
  numerator : Vector Single 3
  denominator : Vector Single 2
  deriving DecidableEq, Repr, Inhabited

/-- What a filter remembers; the floating-point filters keep doubles in the first two words. -/
structure State where
  s0 : Int64
  s1 : Int64
  s2 : Int64
  s3 : Int64
  deriving DecidableEq, Repr, Inhabited

/-- The state of a filter that has heard nothing. -/
def State.initial : State := ⟨0, 0, 0, 0⟩

namespace Coefficients

/-- Coefficients that are all zero. -/
def zero : Coefficients := ⟨.replicate 3 0, .replicate 2 0⟩

/-- The filter that passes its input through. -/
def passThrough : Coefficients := ⟨#v[16384, 0, 0], #v[0, 0]⟩

/-- The bytes of the coefficients. -/
def encode (coefficients : Coefficients) : Bytes :=
  .ofVector .ofInt16 coefficients.b ++ .ofVector .ofInt16 coefficients.a

/-- Reads coefficients. -/
def reader : Reader Coefficients := do
  let b ← Reader.vector .int16 3
  let a ← Reader.vector .int16 2
  pure { b, a }

end Coefficients

namespace FloatCoefficients

/-- A filter that is not enabled. -/
def zero : FloatCoefficients := ⟨0, .replicate 3 0, .replicate 3 0, .replicate 2 0⟩

/-- Any enabling byte but zero enables the filter. -/
def isEnabled (filter : FloatCoefficients) : Bool := filter.enabled ≠ 0

/-- The bytes of the coefficients. -/
def encode (filter : FloatCoefficients) : Bytes :=
  [filter.enabled] ++ .ofVector (fun byte => [byte]) filter.reserved ++
    .ofVector .ofSingle filter.numerator ++ .ofVector .ofSingle filter.denominator

/-- Reads coefficients. -/
def reader : Reader FloatCoefficients := do
  let enabled ← Reader.uint8
  let reserved ← Reader.vector .uint8 3
  let numerator ← Reader.vector .single 3
  let denominator ← Reader.vector .single 2
  pure { enabled, reserved, numerator, denominator }

end FloatCoefficients

/-- Runs a filter step over samples in order, from a state to the state it leaves. -/
def run (step : State → Int32 → Except Fault (State × Int32)) (state : State)
    (samples : List Int32) : Except Fault (State × List Int32) := do
  -- The outputs are collected latest first, so that the run needs no stack.
  let (state, outputs) ← samples.foldlM (fun (state, outputs) sample => do
    let (state, output) ← step state sample
    pure (state, output :: outputs)) (state, [])
  pure (state, outputs.reverse)

/-- One sample through the integer filter, whose sums fault when they leave the word. -/
def integerStep (coefficients : Coefficients) (state : State) (sample : Int32) :
    Except Fault (State × Int32) := do
  let { b, a } := coefficients
  let x := sample.toInt
  -- Each sum is formed in a word of its own, in the order in which it is written here.
  let sum ← checkedWord (x * b[0].toInt + state.s0.toInt)
  let output := clampSample (roundShiftRight sum 14)
  let y := output.toInt
  let carry ← checkedWord (state.s1.toInt + b[1].toInt * x)
  let s0 ← checkedWord (carry.toInt + a[0].toInt * y)
  let s1 ← checkedWord (b[2].toInt * x + a[1].toInt * y)
  pure ({ state with s0, s1 }, output)

/-- One sample through the floating-point filter, whose output is fed back before it is cut off. -/
def floatStep (b : Vector Double 3) (a : Vector Double 2) (state : State) (sample : Int32) :
    State × Int32 :=
  let x := Double.ofSample sample
  -- The stored terms are negated already, so that all products are added.
  let y := x * b[0] + .ofWord state.s0
  let s0 := x * b[1] + y * a[0] + .ofWord state.s1
  let s1 := x * b[2] + y * a[1]
  ({ state with s0 := s0.toWord, s1 := s1.toWord }, y.toSample)

/-- Filters samples in integer arithmetic. -/
def applyInteger (coefficients : Coefficients) (state : State) (samples : List Int32) :
    Except Fault (State × List Int32) :=
  run (integerStep coefficients) state samples

/-- Filters samples in double precision; the two unused words are cleared. -/
def applyDouble (b : Vector Double 3) (a : Vector Double 2) (state : State)
    (samples : List Int32) : Except Fault (State × List Int32) :=
  run (fun state sample => pure (floatStep b a state sample)) { state with s2 := 0, s3 := 0 }
    samples

/-- A coefficient with fourteen fractional bits in double precision. -/
def widen (coefficient : Int16) : Double :=
  -- Sixteen bits always have an exact double.
  .ofFloat (Fixed.mk coefficient.toInt64 : Fixed 14).toFloat

/-- Filters samples in double precision with the integer coefficients. -/
def applyWidened (coefficients : Coefficients) (state : State) (samples : List Int32) :
    Except Fault (State × List Int32) :=
  applyDouble (coefficients.b.map widen) (coefficients.a.map widen) state samples

/-- Filters samples in double precision with single-precision coefficients. -/
def applyFloat (filter : FloatCoefficients) (state : State) (samples : List Int32) :
    Except Fault (State × List Int32) :=
  applyDouble (filter.numerator.map .ofSingle) (filter.denominator.map .ofSingle) state samples

end Mixdown.Biquad
