import Mixdown.Bytes
import Mixdown.Error

/-! Revisions of the guest's audio interface and the features each one brings. -/

namespace Mixdown

/-- The newest revision. -/
def newestRevision : Nat := 15

/-- A known revision. -/
structure Revision where
  number : Nat
  known : number ≤ newestRevision := by decide
  deriving DecidableEq, Repr

namespace Revision

/-- The newest revision, taken where none is named. -/
def newest : Revision := { number := newestRevision }

/-- The magic of revision zero. -/
def baseMagic : UInt32 := fourCharacters 'R'.toUInt8 'E'.toUInt8 'V'.toUInt8 '0'.toUInt8

/-- The magic of a revision, whose last character counts up modulo the byte. -/
def magic (number : UInt32) : UInt32 := baseMagic + number <<< 24

/-- The revision number that a magic carries. -/
def ofMagic? (magic : UInt32) : Except Error UInt32 :=
  if magic &&& 0x00FFFFFF ≠ baseMagic &&& 0x00FFFFFF ∨ magic < baseMagic then
    .error (.revision magic)
  else .ok ((magic - baseMagic) >>> 24)

/-- The revision of a number, unless it is newer than any known one. -/
def ofNumber? (number : UInt32) : Except Error Revision :=
  if known : number.toNat ≤ newestRevision then .ok { number := number.toNat, known }
  else .error (.revision (magic number))

/-- Splitters fan a voice out to several mixes. -/
def hasSplitter (revision : Revision) : Bool := 2 ≤ revision.number

/-- A splitter may link any number of destinations. -/
def hasFreeLinking (revision : Revision) : Bool := 5 ≤ revision.number

/-- Effect records carry compressors. -/
def hasSecondRecords (revision : Revision) : Bool := 9 ≤ revision.number

/-- Destination records can ask for their previous volumes to be reset. -/
def hasVolumeReset (revision : Revision) : Bool := 13 ≤ revision.number

/-- Destination records carry filters. -/
def hasFilterRecords (revision : Revision) : Bool := 15 ≤ revision.number

/-- Filters may have floating-point coefficients. -/
def hasFloatFilters (revision : Revision) : Bool := 15 ≤ revision.number

end Revision

end Mixdown
