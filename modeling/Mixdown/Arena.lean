import Mixdown.Fault

/-! The arena in which all mix buffers of a frame lie one behind the other. -/

namespace Mixdown

/-- A range of samples in an arena. -/
structure Segment where
  start : Nat
  stop : Nat
  deriving DecidableEq, Repr

/-- Mix buffers of equal length in one array. -/
structure Arena where
  /-- The number of buffers. -/
  buffers : Nat
  /-- The samples in each buffer. -/
  frames : Nat
  samples : Array Int32
  deriving DecidableEq, Repr

namespace Arena

/-- The bytes one sample takes. -/
def sampleSize : Nat := 4

/-- A silent arena, which faults when its size passes what memory can address. -/
def create (buffers frames : Nat) : Except Fault Arena := do
  -- The number of samples may be addressable while their bytes are not.
  let count ← checkedSize (buffers * frames)
  if addressSpace / 2 ≤ count * sampleSize then .error .overflow
  else pure { buffers, frames, samples := Array.replicate count 0 }

/-- The arena that holds the given rows, which faults when they differ in length. -/
def ofRows (rows : List (List Int32)) : Except Fault Arena :=
  let frames := (rows.head?.map List.length).getD 0
  if rows.all (·.length = frames) then
    .ok { buffers := rows.length, frames, samples := rows.flatten.toArray }
  else .error .unequalRows

/-- The number of samples in all buffers. -/
def size (arena : Arena) : Nat := arena.samples.size

/-- The samples of a buffer when each holds `count`, unless they pass the end of the arena. -/
def segment? (arena : Arena) (index count : Nat) : Option Segment :=
  -- A product or a sum that leaves the address space stands for no segment.
  let start := index * count
  let stop := start + count
  if start < addressSpace ∧ stop < addressSpace ∧ stop ≤ arena.size then some ⟨start, stop⟩
  else none

/-- The segment of a buffer by the arena's own shape, which faults when there is none. -/
def bufferSegment (arena : Arena) (index : Nat) : Except Fault Segment :=
  -- The buffer must be counted and its samples must be there.
  let start := index * arena.frames
  if index < arena.buffers ∧ start + arena.frames ≤ arena.size then
    .ok ⟨start, start + arena.frames⟩
  else .error .outOfBounds

/-- The samples of a segment. -/
def slice (arena : Arena) (segment : Segment) : List Int32 :=
  (arena.samples.extract segment.start segment.stop).toList

/-- The samples of a buffer. -/
def buffer (arena : Arena) (index : Nat) : Except Fault (List Int32) := do
  pure (arena.slice (← arena.bufferSegment index))

/-- The samples of every buffer, in order. -/
def toRows (arena : Arena) : Except Fault (List (List Int32)) :=
  (List.range arena.buffers).mapM arena.buffer

/-- The arena with one sample replaced, counted through all buffers. -/
def put (arena : Arena) (position : Nat) (sample : Int32) : Except Fault Arena := do
  pure { arena with samples := ← store arena.samples position sample }

/-- The arena with one sample of one buffer replaced. -/
def putIn (arena : Arena) (index position : Nat) (sample : Int32) : Except Fault Arena := do
  let segment ← arena.bufferSegment index
  if position < arena.frames then arena.put (segment.start + position) sample else .error .outOfBounds

/-- The arena with every sample set to one value. -/
def fill (arena : Arena) (sample : Int32) : Arena :=
  { arena with samples := Array.replicate arena.size sample }

/-- Writes samples one behind the other from a position on. -/
def write (samples : Array Int32) : (start : Nat) → List Int32 → Except Fault (Array Int32)
  | _, [] => .ok samples
  | start, sample :: rest => do
    let samples ← store samples start sample
    write samples (start + 1) rest

/-- The arena after samples were written from a position on, which faults past the end. -/
def splice (arena : Arena) (start : Nat) (items : List Int32) : Except Fault Arena := do
  if arena.size < start + items.length then .error .outOfBounds
  else pure { arena with samples := ← write arena.samples start items }

/-- What an arena says of its shape. -/
def describe (arena : Arena) : String :=
  s!"MixBuffer \x7b <{arena.buffers} buffers of {arena.frames} samples> \x7d"

end Arena

end Mixdown
