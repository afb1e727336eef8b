import Mixdown.Signal.Word

/-! Rows of samples, one for each channel of a sound, and their interleaved form. -/

namespace Mixdown

/-- Samples by channel. -/
abbrev Rows := List (List Int32)

namespace Rows

/-- The length of the shortest row; where there are no rows, none has a sample. -/
def shortest (rows : Rows) : Nat := ((rows.map List.length).min?).getD 0

/-- All samples up to the end of the shortest row, those of one instant next to each other. -/
def interleave (rows : Rows) : List Int32 :=
  -- The rows are held as arrays, since every instant looks into each of them.
  let columns := rows.map List.toArray
  (List.range rows.shortest).flatMap fun instant => columns.map (·.getD instant 0)

/-- The rows of a number of channels whose interleaved samples are given. -/
def deinterleave (channels : Nat) (samples : List Int32) : Rows :=
  -- The rows are held as arrays, since every sample goes to the end of one of them.
  let rows := samples.zipIdx.foldl
    (fun rows placed => rows.modify (placed.2 % channels) (·.push placed.1))
    (Array.replicate channels #[])
  rows.toList.map Array.toList

/-- The sample that stands for one. -/
def fullScale : Single := 32768

/-- Interleaved samples as numbers between minus one and one. -/
def toSingles (rows : Rows) : List Single :=
  rows.interleave.map fun sample => .ofSample sample / fullScale

end Rows

end Mixdown
