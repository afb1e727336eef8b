import Mixdown.Bytes

/-! What the header of a sound file says of its samples. -/

namespace Mixdown.Wave

/-- The two kinds of sample. -/
inductive SampleKind where
  | integer
  | float
  deriving DecidableEq, Repr

/-- What is said of the samples in a sound file. -/
structure Format where
  channels : UInt16
  /-- The sample rate in hertz. -/
  rate : UInt32
  /-- The bits of a sample that carry its value. -/
  bits : UInt16
  kind : SampleKind
  deriving DecidableEq, Repr

/-- A format with the layout of the samples in the file. -/
structure StoredFormat extends Format where
  /-- The bytes that a sample takes. -/
  width : Nat
  deriving DecidableEq, Repr

/-- The tag of the file as a whole. -/
def fileTag : UInt32 := fourCharacters 'R'.toUInt8 'I'.toUInt8 'F'.toUInt8 'F'.toUInt8

/-- The tag of files that hold sound. -/
def soundTag : UInt32 := fourCharacters 'W'.toUInt8 'A'.toUInt8 'V'.toUInt8 'E'.toUInt8

/-- The tag of the chunk with the format. -/
def formatTag : UInt32 := fourCharacters 'f'.toUInt8 'm'.toUInt8 't'.toUInt8 ' '.toUInt8

/-- The tag of a chunk with a redundant count of samples. -/
def countTag : UInt32 := fourCharacters 'f'.toUInt8 'a'.toUInt8 'c'.toUInt8 't'.toUInt8

/-- The tag of the chunk with the samples. -/
def dataTag : UInt32 := fourCharacters 'd'.toUInt8 'a'.toUInt8 't'.toUInt8 'a'.toUInt8

/-- The encoding of plain integer samples. -/
def integerEncoding : UInt16 := 1

/-- The encoding of plain floating-point samples. -/
def floatEncoding : UInt16 := 3

/-- The encoding that leaves the kind of sample to an identifier in the extended format. -/
def extendedEncoding : UInt16 := 0xFFFE

/-- The bytes that the extended format adds to the plain one. -/
def extensionSize : UInt16 := 22

/-- The common part of the identifiers for kinds of sample, behind the first two bytes. -/
def identifierTail : Bytes := [0, 0, 0, 0, 0x10, 0, 0x80, 0, 0, 0xAA, 0, 0x38, 0x9B, 0x71]

/-- The identifier of integer samples. -/
def integerIdentifier : Bytes := .ofUInt16 integerEncoding ++ identifierTail

/-- The identifier of floating-point samples. -/
def floatIdentifier : Bytes := .ofUInt16 floatEncoding ++ identifierTail

end Mixdown.Wave
