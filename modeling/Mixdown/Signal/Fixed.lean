import Mixdown.Fault
import Mixdown.Signal.Word

/-! Fixed-point numbers in 64-bit words, and the rounding they share with the integer filters. -/

namespace Mixdown

/-- The value shifted right, a half rounded up; the half is added modulo the word size. -/
def roundShiftRight (value : Int64) (bits : Nat) : Int64 :=
  if bits = 0 then value
  else (value + (1 : Int64) <<< Int64.ofNat (bits - 1)) >>> Int64.ofNat bits

/-- The same for any shift, which faults when the shift is as wide as the word. -/
def roundShiftRightChecked (value : Int64) (bits : Nat) : Except Fault Int64 :=
  if bits < 64 then .ok (roundShiftRight value bits) else .error .overflow

/-- The nearest sample, values beyond either end giving that end. -/
def clampSample (value : Int64) : Int32 := Int32.ofIntClamp value.toInt

/-- A signed number with a fixed count of fractional bits. -/
structure Fixed (fraction : Nat) where
  raw : Int64
  deriving DecidableEq, Repr

namespace Fixed

/-- The raw value of one. -/
def scale (fraction : Nat) : Float := ((1 : UInt64) <<< UInt64.ofNat fraction).toFloat

/-- The number one. -/
def one : Fixed fraction := ⟨(1 : Int64) <<< Int64.ofNat fraction⟩

/-- An integer, of which the bits that do not fit are lost. -/
def ofInt (value : Int64) : Fixed fraction := ⟨value <<< Int64.ofNat fraction⟩

/-- The nearest number, a half rounded away from zero, values out of range giving the nearer end. -/
def ofFloat (value : Float) : Fixed fraction := ⟨(value * scale fraction).round.toInt64⟩

/-- The value in double precision. -/
def toFloat (number : Fixed fraction) : Float := number.raw.toFloat / scale fraction

/-- The value in single precision, rounded by way of double precision. -/
def toSingle (number : Fixed fraction) : Single := .ofFloat number.toFloat.toFloat32

/-- The nearest integer, a half rounded up. -/
def rounded (number : Fixed fraction) : Int64 := roundShiftRight number.raw fraction

/-- The product, rounded down and held inside the word. -/
def mul (left right : Fixed fraction) : Fixed fraction :=
  ⟨Int64.ofIntClamp ((left.raw.toInt * right.raw.toInt) >>> fraction)⟩

instance : Mul (Fixed fraction) := ⟨mul⟩

end Fixed

end Mixdown
