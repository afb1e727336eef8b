/-! Floating-point numbers kept as bit patterns, with the sign and payload of every NaN. -/

namespace Mixdown

/-- A single-precision number, kept as its bit pattern. -/
structure Single where
  bits : UInt32
  deriving DecidableEq, Repr, Inhabited

/-- A double-precision number, kept as its bit pattern. -/
structure Double where
  bits : UInt64
  deriving DecidableEq, Repr, Inhabited

namespace Single

/-- The pattern of a number; every NaN among the numbers has one quiet pattern. -/
@[inline] def ofFloat (value : Float32) : Single := ⟨value.toBits⟩

/-- The number that a pattern stands for. -/
@[inline] def toFloat (word : Single) : Float32 := Float32.ofBits word.bits

/-- Natural numbers stand for the nearest single-precision numbers. -/
instance : OfNat Single n := ⟨ofFloat (OfNat.ofNat n)⟩

/-- Decimal numbers stand for the nearest single-precision numbers. -/
instance : OfScientific Single :=
  ⟨fun mantissa negative exponent => ofFloat (OfScientific.ofScientific mantissa negative exponent)⟩

/-- The result of an invalid operation, a quiet NaN with its sign set. -/
def invalid : Single := ⟨0xFFC00000⟩

/-- A pattern is a NaN when it lies above infinity, whatever its sign. -/
@[inline] def isNaN (word : Single) : Bool := 0x7F800000 < word.bits &&& 0x7FFFFFFF

/-- The quiet form of a NaN keeps its sign and the rest of its payload. -/
@[inline] def quiet (word : Single) : Single := ⟨word.bits ||| 0x00400000⟩

/-- A binary operation hands on the first NaN among its operands. -/
@[inline] def lift (op : Float32 → Float32 → Float32) (left right : Single) : Single :=
  if left.isNaN then left.quiet
  else if right.isNaN then right.quiet
  else
    let result := op left.toFloat right.toFloat
    if result.isNaN then invalid else ofFloat result

instance : Add Single := ⟨lift (· + ·)⟩
instance : Sub Single := ⟨lift (· - ·)⟩
instance : Mul Single := ⟨lift (· * ·)⟩
instance : Div Single := ⟨lift (· / ·)⟩

/-- Negation changes the sign bit, also of a NaN. -/
@[inline] def negate (word : Single) : Single := ⟨word.bits ^^^ 0x80000000⟩

instance : Neg Single := ⟨negate⟩

/-- Numbers are compared as such; a NaN is neither below nor above any number. -/
instance : LT Single := ⟨fun left right => left.toFloat < right.toFloat⟩
instance : LE Single := ⟨fun left right => left.toFloat ≤ right.toFloat⟩
instance (left right : Single) : Decidable (left < right) :=
  inferInstanceAs (Decidable (left.toFloat < right.toFloat))
instance (left right : Single) : Decidable (left ≤ right) :=
  inferInstanceAs (Decidable (left.toFloat ≤ right.toFloat))

/-- The magnitude of a number, found by clearing the sign bit. -/
@[inline] def abs (word : Single) : Single := ⟨word.bits &&& 0x7FFFFFFF⟩

/-- The exponential of a number. -/
def exp (word : Single) : Single := ofFloat word.toFloat.exp

/-- A number raised to a power. -/
def pow (base exponent : Single) : Single := ofFloat (base.toFloat.pow exponent.toFloat)

/-- The decimal logarithm of a number. -/
def log10 (word : Single) : Single := ofFloat word.toFloat.log10

/-- The cosine of an angle. -/
def cos (word : Single) : Single := ofFloat word.toFloat.cos

/-- The integral part of a number, toward zero. -/
def truncated (word : Single) : Single :=
  ofFloat (if word < 0 then word.toFloat.ceil else word.toFloat.floor)

/-- The nearest integral number, a half away from zero. -/
def rounded (word : Single) : Single := ofFloat word.toFloat.round

/-- The larger number; a NaN gives way to the other operand, and of equal ones the second is taken,
so that it decides the sign of a zero. -/
def larger (first second : Single) : Single :=
  if second.isNaN then first else if second < first then first else second

/-- The smaller number; a NaN gives way to the other operand, and of equal ones the second is taken,
so that it decides the sign of a zero. -/
def smaller (first second : Single) : Single :=
  if second.isNaN then first else if first < second then first else second

/-- A size rounded to single precision. -/
def ofNat (size : Nat) : Single := ofFloat size.toUInt64.toFloat32

/-- A sample rounded to single precision. -/
@[inline] def ofSample (sample : Int32) : Single := ofFloat sample.toFloat32

/-- The integral part of a number as a sample; out of range saturates and a NaN gives zero. -/
@[inline] def toSample (word : Single) : Int32 := word.toFloat.toInt32

/-- The key that orders all patterns: negative numbers lie below positive ones and NaNs outside. -/
def orderKey (word : Single) : Int :=
  -- A pattern with its sign set counts down from minus one as its magnitude grows.
  let magnitude := (word.bits &&& 0x7FFFFFFF).toNat
  if word.bits &&& 0x80000000 = 0 then Int.ofNat magnitude else -1 - Int.ofNat magnitude

/-- The length of the hypotenuse, computed in double precision and rounded once. -/
def hypotenuse (x y : Single) : Single :=
  -- An infinite side gives infinity unless the other side is a signalling NaN.
  let infinite (word : Single) := word.bits &&& 0x7FFFFFFF == 0x7F800000
  let signalling (word : Single) := word.isNaN && word.bits &&& 0x00400000 == 0
  if (infinite x || infinite y) && !signalling x && !signalling y then ⟨0x7F800000⟩
  else if x.isNaN || y.isNaN then x + y
  else
    let a := x.toFloat.toFloat
    let b := y.toFloat.toFloat
    ofFloat (a * a + b * b).sqrt.toFloat32

end Single

namespace Double

/-- The pattern of a number; every NaN among the numbers has one quiet pattern. -/
@[inline] def ofFloat (value : Float) : Double := ⟨value.toBits⟩

/-- The number that a pattern stands for. -/
@[inline] def toFloat (word : Double) : Float := Float.ofBits word.bits

/-- The pattern that a signed word holds. -/
@[inline] def ofWord (word : Int64) : Double := ⟨word.toUInt64⟩

/-- The signed word with the same bits. -/
@[inline] def toWord (number : Double) : Int64 := number.bits.toInt64

/-- A number kept in a word and taken out again is the same number, whatever its pattern. -/
@[simp] theorem ofWord_toWord (number : Double) : ofWord number.toWord = number := rfl

/-- A word taken for a number and kept again is the same word. -/
@[simp] theorem toWord_ofWord (word : Int64) : (ofWord word).toWord = word := rfl

/-- The result of an invalid operation, a quiet NaN with its sign set. -/
def invalid : Double := ⟨0xFFF8000000000000⟩

/-- A pattern is a NaN when it lies above infinity, whatever its sign. -/
@[inline] def isNaN (word : Double) : Bool :=
  0x7FF0000000000000 < word.bits &&& 0x7FFFFFFFFFFFFFFF

/-- The quiet form of a NaN keeps its sign and the rest of its payload. -/
@[inline] def quiet (word : Double) : Double := ⟨word.bits ||| 0x0008000000000000⟩

/-- A binary operation hands on the first NaN among its operands. -/
@[inline] def lift (op : Float → Float → Float) (left right : Double) : Double :=
  if left.isNaN then left.quiet
  else if right.isNaN then right.quiet
  else
    let result := op left.toFloat right.toFloat
    if result.isNaN then invalid else ofFloat result

instance : Add Double := ⟨lift (· + ·)⟩
instance : Mul Double := ⟨lift (· * ·)⟩

/-- Widening is exact; a NaN keeps its sign and payload and becomes quiet. -/
def ofSingle (word : Single) : Double :=
  if word.isNaN then
    -- The fraction moves up by as many bits as double precision adds.
    let sign := (word.bits >>> 31).toUInt64 <<< 63
    let payload := (word.bits &&& 0x007FFFFF).toUInt64 <<< 29
    quiet ⟨sign ||| 0x7FF0000000000000 ||| payload⟩
  else ofFloat word.toFloat.toFloat

/-- A sample as a double-precision number. -/
@[inline] def ofSample (sample : Int32) : Double := ofFloat sample.toFloat

/-- The integral part of a number as a sample; out of range saturates and a NaN gives zero. -/
@[inline] def toSample (number : Double) : Int32 := number.toFloat.toInt32

end Double

end Mixdown
