import Mixdown.Splitter
import Mixdown.Splitter.Destination

/-! Splitters and the pool of destinations that their chains are linked from. -/

namespace Mixdown.Splitter

/-- Changes one element, which faults when there is none at the index. -/
def change (items : Array α) (index : Nat) (modify : α → α) : Except Fault (Array α) := do
  store items index (modify (← fetch items index))

/-- All splitters and destinations, and what the guest's revision grants them. -/
structure Graph where
  splitters : Array Splitter
  destinations : Array Destination
  /-- Splitters may link any number of destinations. -/
  freeLinking : Bool
  /-- Records may ask for previous volumes to be reset. -/
  volumeReset : Bool
  /-- Destination records carry filters. -/
  filtered : Bool
  deriving DecidableEq, Repr

namespace Graph

/-- A graph without splitters. -/
def empty : Graph := ⟨#[], #[], false, false, false⟩

/-- Replaces all splitters and destinations. -/
def setUp (splitters : Array Splitter) (destinations : Array Destination) (freeLinking : Bool)
    (revision : Revision) : Graph where
  splitters
  destinations
  freeLinking
  volumeReset := revision.hasVolumeReset
  filtered := revision.hasFilterRecords

/-- The identifiers below a count; a count with its highest bit set is negative and has none. -/
def identifiersBelow (count : Nat) : Array Int32 :=
  if count < UInt32.size / 2 then (Array.range count).map Int32.ofNat else #[]

/-- Allocates splitters and destinations, unless the revision or a zero count leaves them out. -/
def allocate (graph : Graph) (revision : Revision) (splitters destinations : Nat) : Graph :=
  -- A graph that is left alone keeps what an earlier allocation has set up.
  if !revision.hasSplitter || splitters = 0 || destinations = 0 then graph
  else
    setUp ((identifiersBelow splitters).map .create) ((identifiersBelow destinations).map .create)
      revision.hasFreeLinking revision

/-- A graph is in use when it has both splitters and destinations. -/
def isUsed (graph : Graph) : Bool := !graph.splitters.isEmpty && !graph.destinations.isEmpty

/-- The destination behind another one. -/
def next? (graph : Graph) (destination : Nat) : Option Nat :=
  graph.destinations[destination]?.bind Destination.next

/-- The destinations from a place in a chain on, at most as many as asked for. -/
def chainFrom (graph : Graph) : (most : Nat) → Option Nat → List Nat
  | 0, _ | _, none => []
  -- The walk trusts the links and not the splitter's count.
  | most + 1, some destination => destination :: graph.chainFrom most (graph.next? destination)

/-- The destinations of a splitter in order; no chain is longer than the pool. -/
def chain (graph : Graph) (splitter : Nat) : List Nat :=
  graph.chainFrom graph.destinations.size (graph.splitters[splitter]?.bind Splitter.head)

/-- The destination at a place in a splitter's chain. -/
def destination? (graph : Graph) (splitter place : Nat) : Option Destination :=
  (graph.chain splitter)[place]?.bind (graph.destinations[·]?)

/-- Lowers the flag of every splitter. -/
def clearNew (graph : Graph) : Graph :=
  { graph with splitters := graph.splitters.map fun splitter => { splitter with isNew := false } }

/-- Takes every destination out of a chain, which faults when the chain does not end in time. -/
def release : (most : Nat) → Option Nat → Array Destination → Except Fault (Array Destination)
  | _, none, destinations => .ok destinations
  | 0, some _, _ => .error .endlessChain
  | most + 1, some destination, destinations => do
    -- The link is read before it is cleared.
    let node ← fetch destinations destination
    let destinations ← store destinations destination { node with next := none, owner := none }
    release most node.next destinations

/-- Lets the destination in front of a removed one lead to what came behind it. -/
def bypass (removed : Nat) (after : Option Nat) :
    (most : Nat) → Option Nat → Array Destination → Except Fault (Array Destination)
  | _, none, destinations => .ok destinations
  | 0, some _, _ => .error .endlessChain
  | most + 1, some destination, destinations => do
    let node ← fetch destinations destination
    if node.next = some removed then store destinations destination { node with next := after }
    else bypass removed after most node.next destinations

/-- Removes a destination from a splitter's chain. -/
def unlink (graph : Graph) (owner removed : Nat) : Except Fault Graph := do
  -- The removed destination is loose before the chain has been closed around it.
  let node ← fetch graph.destinations removed
  let destinations ← store graph.destinations removed { node with next := none, owner := none }
  let splitter ← fetch graph.splitters owner
  if splitter.head = some removed then
    -- Nothing leads to the head but the splitter itself.
    let splitters ← store graph.splitters owner (splitter.relink node.next (splitter.count - 1))
    pure { graph with destinations, splitters }
  else
    let destinations ← bypass removed node.next destinations.size splitter.head destinations
    let splitters ← store graph.splitters owner (splitter.relink splitter.head (splitter.count - 1))
    pure { graph with destinations, splitters }

/-- A chain under construction. -/
structure Draft where
  head : Option Nat
  tail : Option Nat
  count : Nat

/-- Takes a destination off its owner's chain, if it has an owner. -/
def withdraw (graph : Graph) (owner : Option Nat) (removed : Nat) : Except Fault Graph :=
  match owner with
  | some owner => graph.unlink owner removed
  | none => .ok graph

/-- Leads the draft to a destination, which becomes its head or comes behind its tail. -/
def Draft.tie (draft : Draft) (destinations : Array Destination) (added : Nat) :
    Except Fault (Option Nat × Array Destination) :=
  match draft.tail with
  -- A draft with a tail has a head as well, which stays.
  | some tail => do pure (draft.head, ← change destinations tail ({ · with next := some added }))
  | none => .ok (some added, destinations)

/-- Puts a destination without an owner behind the draft of a splitter's chain. -/
def attach (graph : Graph) (splitter : Nat) (draft : Draft) (added : Nat) :
    Except Fault (Draft × Graph) := do
  let (head, destinations) ← draft.tie graph.destinations added
  let destinations ← change destinations added ({ · with owner := some splitter })
  pure (⟨head, some added, draft.count + 1⟩, { graph with destinations })

/-- Appends destinations to a splitter's chain, ending at the first one that does not exist. -/
def link (splitter : Nat) : List Nat → Draft → Graph → Except Fault (Draft × Graph)
  | [], draft, graph => .ok (draft, graph)
  | id :: ids, draft, graph =>
    match graph.destinations[id]? with
    -- What stands behind an identifier out of range is not looked at.
    | none => .ok (draft, graph)
    | some node =>
      -- A destination listed twice keeps its first place; one of another chain leaves it.
      if node.owner = some splitter then link splitter ids draft graph
      else do
        let graph ← graph.withdraw node.owner id
        let (draft, graph) ← graph.attach splitter draft id
        link splitter ids draft graph

/-- The number of identifiers a splitter may link; without free linking each has an equal share. -/
def linkable (graph : Graph) (declared : Nat) : Nat :=
  if graph.freeLinking then declared
  else min declared (graph.destinations.size / graph.splitters.size)

/-- Builds a splitter's chain anew from the identifiers of its record. -/
def rebuild (graph : Graph) (splitter : Nat) (ids : List Nat) : Except Fault Graph := do
  -- The old chain is given up before a single identifier is looked at.
  let held ← fetch graph.splitters splitter
  let destinations ← release graph.destinations.size held.head graph.destinations
  let splitters ← store graph.splitters splitter (held.relink none 0)
  let (draft, graph) ← link splitter ids ⟨none, none, 0⟩ { graph with destinations, splitters }
  -- Linking may have written other splitters, so this one is looked up again.
  let splitters ← change graph.splitters splitter (·.relink draft.head draft.count)
  pure { graph with splitters }

/-- The index that an identifier names among a number of items, if there is one. -/
def index? (id : Int32) (count : Nat) : Option Nat :=
  if 0 ≤ id.toInt ∧ id.toInt.toNat < count then some id.toInt.toNat else none

/-- Applies a record to the splitter it names, with the bytes it takes. -/
def applyRecord (graph : Graph) (splitter : Nat) (record : SplitterRecord) (following : Bytes) :
    Except Fault (Nat × Graph) := do
  -- Fewer identifiers may be linked than declared, and all declared ones are passed over.
  let ids := identifiers (graph.linkable record.count.toNat) following
  let graph ← graph.rebuild splitter ids
  let (received, taken) := (← fetch graph.splitters splitter).receive record
  let splitters ← store graph.splitters splitter received
  pure (taken, { graph with splitters })

/-- Applies splitter records, with the bytes they take; the first that cannot be read ends them. -/
def updateSplitters : (count : Nat) → Bytes → (offset : Nat) → Graph →
    Except Fault (Bytes × Nat × Graph)
  | 0, bytes, offset, graph => .ok (bytes, offset, graph)
  | count + 1, bytes, offset, graph =>
    match SplitterRecord.reader bytes with
    | none => .ok (bytes, offset, graph)
    | some (record, rest) =>
      -- A record with another magic is never passed, so it stands in the way of all others.
      if record.magic ≠ splitterMagic then .ok (bytes, offset, graph)
      else match index? record.id graph.splitters.size with
        | none => .ok (bytes, offset, graph)
        | some splitter => do
          let (taken, graph) ← graph.applyRecord splitter record rest
          updateSplitters count (bytes.drop taken) (offset + taken) graph

/-- The record with what the revision does not grant taken out. -/
def granted (graph : Graph) (record : DestinationRecord) : DestinationRecord :=
  if graph.volumeReset then record else { record with resetPrevious := 0 }

/-- Applies destination records, with the bytes they take; the first misfit ends them. -/
def updateDestinations : (count : Nat) → Bytes → (offset : Nat) → Graph →
    Except Fault (Nat × Graph)
  | 0, _, offset, graph => .ok (offset, graph)
  | count + 1, bytes, offset, graph =>
    match DestinationRecord.reader graph.filtered bytes with
    | none => .ok (offset, graph)
    | some (record, rest) =>
      -- A record with another magic or a foreign identifier is never passed either.
      if record.magic ≠ destinationMagic then .ok (offset, graph)
      else match index? record.id graph.destinations.size with
        | none => .ok (offset, graph)
        | some destination => do
          let destinations ←
            change graph.destinations destination (·.accept (graph.granted record))
          updateDestinations count rest (offset + DestinationRecord.size graph.filtered)
            { graph with destinations }

/-- The count that a header declares; a negative one stands for none. -/
def declared (count : Int32) : Nat := count.toInt.toNat

/-- Applies a section and gives the bytes it takes, rounded up; a section without a right header,
or one for a graph that is not in use, takes none and changes nothing. -/
def update (graph : Graph) (bytes : Bytes) : Except Fault (Nat × Graph) :=
  if !graph.isUsed then .ok (0, graph)
  else
    match Header.reader bytes with
    | none => .ok (0, graph)
    | some (header, rest) =>
      if header.magic ≠ headerMagic then .ok (0, graph)
      else do
        -- Whatever the splitter records leave unread is taken for destination records.
        let (rest, offset, graph) ←
          updateSplitters (declared header.splitters) rest Header.size graph.clearNew
        let (offset, graph) ←
          updateDestinations (declared header.destinations) rest offset graph
        pure (← alignUp offset sectionAlignment, graph)

/-- Latches every destination from a place in a chain on. -/
def latchFrom : (most : Nat) → Option Nat → Array Destination → Except Fault (Array Destination)
  | _, none, destinations => .ok destinations
  | 0, some _, _ => .error .endlessChain
  | most + 1, some destination, destinations => do
    let node ← fetch destinations destination
    let destinations ← store destinations destination node.latch
    latchFrom most node.next destinations

/-- Latches every destination on every chain. -/
def latch (graph : Graph) : Except Fault Graph := do
  let destinations ← graph.splitters.foldlM (fun destinations splitter =>
    latchFrom destinations.size splitter.head destinations) graph.destinations
  pure { graph with destinations }

end Graph

end Mixdown.Splitter
