import Mixdown.Splitter.Section

/-! Splitters, which lead one voice to all destinations on their chains. -/

namespace Mixdown

/-- A splitter and the head of its chain. -/
structure Splitter where
  id : Int32
  rate : UInt32
  head : Option Nat
  /-- The number of destinations in the chain. -/
  count : Nat
  /-- The last section named this splitter. -/
  isNew : Bool
  deriving DecidableEq, Repr

namespace Splitter

/-- A splitter without destinations. -/
def create (id : Int32) : Splitter := ⟨id, 0, none, 0, true⟩

/-- The splitter with another chain. -/
def relink (splitter : Splitter) (head : Option Nat) (count : Nat) : Splitter :=
  { splitter with head, count }

/-- The splitter after a record, with the bytes it takes; another's record takes none. -/
def receive (splitter : Splitter) (record : SplitterRecord) : Splitter × Nat :=
  -- The identifiers behind the record count as taken, however many of them were linked.
  if record.id ≠ splitter.id then (splitter, 0)
  else
    ({ splitter with rate := record.rate, isNew := true },
      SplitterRecord.size + record.count.toNat * identifierSize)

end Splitter

end Mixdown
