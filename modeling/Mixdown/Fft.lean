import Mixdown.InPlace
import Mixdown.Signal.Word

/-! A radix-two transform that runs inside a work buffer, over any arithmetic of its numbers. -/

namespace Mixdown

/-- The arithmetic a transform needs of its real and complex numbers. -/
structure Arithmetic (R C : Type) where
  add : C → C → C
  sub : C → C → C
  mul : C → C → C
  /-- The root of unity for a step within a block, conjugated for the inverse. -/
  twiddle : (inverse : Bool) → (step block : Nat) → C
  /-- Division by the transform size. -/
  shrink : (size : Nat) → C → C
  /-- A real number as a complex one. -/
  embed : R → C
  /-- The real part. -/
  realPart : C → R
  /-- The conjugate. -/
  conjugate : C → C

/-- A complex number of two single-precision parts. -/
structure Complex where
  re : Single
  im : Single
  deriving DecidableEq, Repr, Inhabited

namespace Complex

/-- The ratio of a circle's circumference to its diameter. -/
def pi : Float := 3.141592653589793

instance : Add Complex := ⟨fun x y => ⟨x.re + y.re, x.im + y.im⟩⟩
instance : Sub Complex := ⟨fun x y => ⟨x.re - y.re, x.im - y.im⟩⟩
instance : Mul Complex :=
  ⟨fun x y => ⟨x.re * y.re - x.im * y.im, x.re * y.im + x.im * y.re⟩⟩

/-- The root of unity for a step within a block, found in double precision and rounded. -/
def twiddle (inverse : Bool) (step block : Nat) : Complex :=
  let direction : Float := if inverse then 1 else -1
  let angle := direction * 2 * pi * step.toUInt64.toFloat / block.toUInt64.toFloat
  ⟨.ofFloat angle.cos.toFloat32, .ofFloat angle.sin.toFloat32⟩

/-- The arithmetic of single-precision transforms. -/
def arithmetic : Arithmetic Single Complex where
  add := (· + ·)
  sub := (· - ·)
  mul := (· * ·)
  twiddle := twiddle
  shrink size z :=
    let scale := 1 / Single.ofNat size
    ⟨z.re * scale, z.im * scale⟩
  embed x := ⟨x, 0⟩
  realPart z := z.re
  conjugate z := ⟨z.re, -z.im⟩

end Complex

namespace Fft

/-- What a transform is set up for. -/
inductive Mode where
  | realToComplex
  | complexToReal
  | complexToComplex
  deriving DecidableEq, Repr

/-- The bytes one complex number takes. -/
def elementSize : Nat := 8

/-- The bytes of work buffer a transform needs. -/
def workSize (size : Nat) : Nat := 2 * size * elementSize

/-- The alignment in bytes that work buffers are given. -/
def workAlignment : Nat := 64

/-- The number whose lowest bits are those of another in reverse order. -/
def reverseBits : (bits : Nat) → (index : Nat) → Nat
  | 0, _ => 0
  -- The lowest bit becomes the highest one.
  | bits + 1, index => (index % 2) <<< bits + reverseBits bits (index / 2)

/-- A part of a buffer, whose elements are counted from where it starts. -/
structure Part where
  start : Nat
  length : Nat

namespace Part

/-- The element at an index of a part, which faults when the index leaves the part. -/
def fetch (part : Part) (work : Array C) (index : Nat) : Except Fault C :=
  if index < part.length then Mixdown.fetch work (part.start + index) else .error .outOfBounds

/-- The buffer with one element of a part replaced, which faults when the index leaves the part. -/
def store (part : Part) (work : Array C) (index : Nat) (item : C) : Except Fault (Array C) :=
  if index < part.length then Mixdown.store work (part.start + index) item
  else .error .outOfBounds

end Part

/-- The part of a work buffer that is transformed. -/
def data (size : Nat) : Part := ⟨0, size⟩

/-- The part behind it, of the same length however long the buffer is. -/
def scratch (size : Nat) : Part := ⟨size, size⟩

/-- Copies the data into the scratch part, every index with its bits reversed. -/
def scatter (bits size : Nat) (work : Array C) : Except Fault (Array C) :=
  (List.range size).foldlM (fun work i => do
    (scratch size).store work (reverseBits bits i) (← (data size).fetch work i)) work

/-- Copies the scratch part back into the data. -/
def gather (size : Nat) (work : Array C) : Except Fault (Array C) :=
  -- The scratch part is only read.
  (List.range size).foldlM (fun work i => do
    (data size).store work i (← (scratch size).fetch work i)) work

/-- Combines one pair of elements half a block apart into their rotated sum and difference. -/
def butterfly (arithmetic : Arithmetic R C) (inverse : Bool) (size block start step : Nat)
    (work : Array C) : Except Fault (Array C) := do
  let low := start + step
  let high := low + block / 2
  -- Both elements are read before either is replaced.
  let turned ← (data size).fetch work high
  let rotated := arithmetic.mul (arithmetic.twiddle inverse step block) turned
  let kept ← (data size).fetch work low
  let work ← (data size).store work low (arithmetic.add kept rotated)
  (data size).store work high (arithmetic.sub kept rotated)

/-- Runs all pairs of one stage, whose blocks have the given length. -/
def stage (arithmetic : Arithmetic R C) (inverse : Bool) (size block : Nat)
    (work : Array C) : Except Fault (Array C) :=
  (List.range (size / block)).foldlM (fun work k =>
    -- A step pairs the two halves of a block.
    (List.range (block / 2)).foldlM (fun work step =>
      butterfly arithmetic inverse size block (k * block) step work) work) work

/-- Divides all data by the size. -/
def normalize (arithmetic : Arithmetic R C) (size : Nat) (work : Array C) :
    Except Fault (Array C) :=
  -- Only the way back divides.
  (List.range size).foldlM (fun work i => do
    (data size).store work i (arithmetic.shrink size (← (data size).fetch work i))) work

/-- Transforms the data of a work buffer in place. -/
def transform (arithmetic : Arithmetic R C) (inverse : Bool) (size : Nat) (work : Array C) :
    Except Fault (Array C) := do
  -- The stages double their block length until one block spans the transform.
  let bits := size.log2
  let work ← scatter bits size work
  let work ← gather size work
  let work ← (List.range bits).foldlM (fun work level =>
    stage arithmetic inverse size (2 <<< level) work) work
  if inverse then normalize arithmetic size work else pure work

/-- Writes items to the front of an array. -/
def overwrite (target : Array α) (items : List α) : Except Fault (Array α) :=
  items.zipIdx.foldlM (fun target (item, i) => store target i item) target

/-- Puts the conjugates of the bins below the middle at their mirror images above it. -/
def mirror (arithmetic : Arithmetic R C) (size : Nat) (work : Array C) :
    Except Fault (Array C) :=
  -- The first bin and the middle one are their own mirror images.
  (List.range' 1 (size / 2 - 1)).foldlM (fun work i => do
    store work (size - i) (arithmetic.conjugate (← fetch work i))) work

/-- A transform of a fixed size together with its work buffer. -/
structure Plan (C : Type) where
  size : Nat
  mode : Mode
  work : Array C

namespace Plan

/-- Sets up a transform; the size must be a power of two and the buffer hold twice as many. -/
def create (size : Nat) (mode : Mode) (work : Array C) : Except Error (Plan C) :=
  let want := workSize size
  let got := work.size * elementSize
  -- The size is refused before the buffer is looked at.
  if ¬size.isPowerOfTwo then .error (.sampleCount size)
  else if got < want then .error (.workBuffer want got)
  else .ok { size, mode, work }

/-- A buffer must hold as many elements as the call uses. -/
def checkLength (want got : Nat) : Except Error Unit :=
  if got < want then .error (.shortBuffer want got) else .ok ()

/-- What is done with a plan and an output slice in place. -/
abbrev Job (C O : Type) := InPlace (Plan C × Array O)

/-- A call must name the size its transform was set up for, and is told that size. -/
def checkCount (count : Nat) : Job C O Nat := do
  let (plan, _) ← get
  if count = plan.size then pure plan.size
  else throw (.sampleCountMismatch plan.size count)

/-- The output slice must hold as many elements as the call writes. -/
def checkOutput (want : Nat) : Job C O Unit := do
  let (_, output) ← get
  checkLength want output.size

/-- Changes the work buffer, or faults and leaves it. -/
def onWork (change : Array C → Except Fault (Array C)) : Job C O Unit := do
  let (plan, output) ← get
  let work ← change plan.work
  set ({ plan with work }, output)

/-- Writes items that are found in the work buffer to the front of the output slice. -/
def answer (items : List C → List O) : Job C O Unit := do
  let (plan, output) ← get
  let output ← overwrite output (items plan.work.toList)
  set (plan, output)

/-- Transforms real samples into the bins of their lower half spectrum in place. -/
def processRealToComplex (arithmetic : Arithmetic R C) (input : Array R) (count : Nat) :
    Job C C Unit := do
  let size ← checkCount count
  let bins := size / 2 + 1
  checkLength size input.size
  checkOutput bins
  -- Nothing has been written as far as here.
  onWork (overwrite · ((input.toList.take size).map arithmetic.embed))
  onWork (transform arithmetic false size)
  answer (·.take bins)

/-- Transforms the lower half spectrum of a real signal back into its samples in place. -/
def processComplexToReal (arithmetic : Arithmetic R C) (input : Array C) (count : Nat) :
    Job C R Unit := do
  let size ← checkCount count
  let bins := size / 2 + 1
  checkLength bins input.size
  checkOutput size
  -- Nothing has been written as far as here.
  onWork (overwrite · (input.toList.take bins))
  -- The upper half of a real signal's spectrum is told by the lower half.
  onWork (mirror arithmetic size)
  onWork (transform arithmetic true size)
  answer fun work => (work.take size).map arithmetic.realPart

/-- Transforms complex elements in place, forward or back. -/
def processComplexToComplex (arithmetic : Arithmetic R C) (input : Array C) (count : Nat)
    (inverse : Bool) : Job C C Unit := do
  let size ← checkCount count
  checkLength size input.size
  checkOutput size
  -- Nothing has been written as far as here.
  onWork (overwrite · (input.toList.take size))
  onWork (transform arithmetic inverse size)
  answer (·.take size)

/-- The plan and the output that a job leaves, unless it is refused. -/
def settled (job : Job C O Unit) (plan : Plan C) (output : Array O) :
    Except Error (Plan C × Array O) :=
  Prod.snd <$> InPlace.settled (job.on (plan, output))

/-- Transforms real samples into the bins of their lower half spectrum. -/
def realToComplex (arithmetic : Arithmetic R C) (plan : Plan C) (output : Array C)
    (input : Array R) (count : Nat) : Except Error (Plan C × Array C) :=
  settled (processRealToComplex arithmetic input count) plan output

/-- Transforms the lower half spectrum of a real signal back into its samples. -/
def complexToReal (arithmetic : Arithmetic R C) (plan : Plan C) (output : Array R)
    (input : Array C) (count : Nat) : Except Error (Plan C × Array R) :=
  settled (processComplexToReal arithmetic input count) plan output

/-- Transforms complex elements, forward or back. -/
def complexToComplex (arithmetic : Arithmetic R C) (plan : Plan C) (output input : Array C)
    (count : Nat) (inverse : Bool) : Except Error (Plan C × Array C) :=
  settled (processComplexToComplex arithmetic input count inverse) plan output

end Plan
end Fft

end Mixdown
