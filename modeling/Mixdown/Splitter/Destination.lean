import Mixdown.Command
import Mixdown.Splitter.Section

/-! The destinations of splitters, each with the volumes and filters for one mix. -/

namespace Mixdown.Splitter

/-- The mix of a destination that leads nowhere. -/
def unusedMix : Int32 := Int32.maxValue

/-- A destination and its place in a splitter's chain. -/
structure Destination where
  id : Int32
  mixId : Int32
  volumes : Vector Single maxVolumes
  /-- The volumes that the last frame ended with. -/
  previous : Vector Single maxVolumes
  filters : Vector Biquad.FloatCoefficients maxFilters
  /-- The places of the filters' states, for filters that have run. -/
  states : Vector (Option Nat) maxFilters
  /-- The filters that have run since they were last enabled. -/
  started : Vector Bool maxFilters
  /-- The destination behind this one in its chain. -/
  next : Option Nat
  /-- The splitter whose chain holds this destination. -/
  owner : Option Nat
  inUse : Bool
  /-- The volumes are to be latched after the frame. -/
  pending : Bool
  deriving DecidableEq, Repr

namespace Destination

/-- A destination that is not in use. -/
def create (id : Int32) : Destination where
  id
  mixId := unusedMix
  volumes := .replicate _ 0
  previous := .replicate _ 0
  filters := .replicate _ .zero
  states := .replicate _ none
  started := .replicate _ false
  next := none
  owner := none
  inUse := false
  pending := false

/-- A destination is configured when it is in use and leads to a mix. -/
def isConfigured (destination : Destination) : Bool :=
  destination.inUse && destination.mixId ≠ unusedMix

/-- The destination after a record that names it; any other record is ignored. -/
def receive (destination : Destination) (record : DestinationRecord) : Destination :=
  if record.id ≠ destination.id ∨ record.magic ≠ destinationMagic then destination
  else
    let inUse : Bool := record.inUse ≠ 0
    -- The volumes jump when the destination is put to use or the record asks for it.
    let jumps := (!destination.inUse && inUse) || record.resetPrevious ≠ 0
    { destination with
      mixId := record.mixId.toInt32
      volumes := record.volumes
      previous := if jumps then record.volumes else destination.previous
      pending := if jumps then false else destination.pending
      inUse }

/-- The destination with the filters of a record, if the record carries any. -/
def takeFilters (destination : Destination) (record : DestinationRecord) : Destination :=
  { destination with filters := record.filters.getD destination.filters }

/-- The destination with all that a record sets. -/
def accept (destination : Destination) (record : DestinationRecord) : Destination :=
  (destination.receive record).takeFilters record

/-- Asks for the volumes to be latched. -/
def mark (destination : Destination) : Destination := { destination with pending := true }

/-- Latches the volumes of a destination in use that asked for it. -/
def latch (destination : Destination) : Destination :=
  { destination with
    previous :=
      if destination.inUse && destination.pending then destination.volumes
      else destination.previous
    -- The request is spent whether or not it was met.
    pending := false }

/-- Silences the destination. -/
def clearVolumes (destination : Destination) : Destination :=
  { destination with volumes := .replicate _ 0, previous := .replicate _ 0 }

/-- The volume for a mix buffer and the one before it, which fault when there is no such buffer. -/
def volumesAt (destination : Destination) (buffer : Nat) : Except Fault (Single × Single) :=
  if inside : buffer < maxVolumes then
    .ok (destination.volumes[buffer], destination.previous[buffer])
  else .error .outOfBounds

/-- Sets the volume for a mix buffer, which faults when there is no such buffer. -/
def setVolume (destination : Destination) (buffer : Nat) (volume : Single) :
    Except Fault Destination :=
  if inside : buffer < maxVolumes then
    .ok { destination with volumes := destination.volumes.set buffer volume }
  else .error .outOfBounds

/-- Sets a filter, which faults when there is no such filter. -/
def setFilter (destination : Destination) (index : Nat) (filter : Biquad.FloatCoefficients) :
    Except Fault Destination :=
  if inside : index < maxFilters then
    .ok { destination with filters := destination.filters.set index filter }
  else .error .outOfBounds

/-- The command of one filter over a mix buffer in place. -/
def command (destination : Destination) (buffer : Int16) (index : Fin maxFilters) (place : Nat) :
    BiquadCommand where
  input := buffer
  output := buffer
  -- The filter's own coefficients are single-precision ones.
  coefficients := .zero
  floatCoefficients := destination.filters[index]
  state := some place
  reset := !destination.started[index]
  double := true
  floatTaken := true

/-- The commands of filters in turn; a filter that is not enabled will start anew. -/
def commandsFor (buffer : Int16) :
    List (Fin maxFilters) → Destination → Array Biquad.State →
      Destination × Array Biquad.State × List BiquadCommand
  | [], destination, table => (destination, table, [])
  | index :: rest, destination, table =>
    if destination.filters[index].isEnabled then
      let (place, table) := allot destination.states[index] .initial table
      -- From now on the filter goes on with what its state holds.
      let after :=
        { destination with
          states := destination.states.set index (some place)
          started := destination.started.set index true }
      let (after, table, commands) := commandsFor buffer rest after table
      (after, table, destination.command buffer index place :: commands)
    else
      commandsFor buffer rest
        { destination with started := destination.started.set index false } table

/-- The commands of all enabled filters, if the revision has such filters. -/
def commands (destination : Destination) (revision : Revision) (buffer : Int16)
    (table : Array Biquad.State) : Destination × Array Biquad.State × List BiquadCommand :=
  if revision.hasFloatFilters then
    commandsFor buffer (List.finRange maxFilters) destination table
  else (destination, table, [])

end Destination

end Mixdown.Splitter
