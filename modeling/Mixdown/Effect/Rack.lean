import Mixdown.Effect.Slot
import Mixdown.InPlace

/-! A rack of effect slots, with the result blocks of the guest's and the processor's side. -/

namespace Mixdown.Effect

/-- Effect slots and their result blocks. -/
structure Rack where
  slots : List Slot
  /-- The guest's result block of every slot. -/
  guest : List ResultBlock
  /-- The signal processor's result blocks, of which there may be more or fewer than slots. -/
  shared : List ResultBlock
  deriving DecidableEq, Repr

namespace Rack

/-- A rack of empty slots. -/
def create (slots shared : Nat) : Rack where
  slots := List.replicate slots .empty
  guest := List.replicate slots .zero
  shared := List.replicate shared .zero

/-- The number of slots. -/
def size (rack : Rack) : Nat := rack.slots.length

/-- The slot at an index, which faults when there is none. -/
def slotAt (index : Nat) : InPlace Rack Slot := do
  match (← get).slots[index]? with
  | some slot => pure slot
  | none => throw (.fault .outOfBounds)

/-- Puts a slot in the place of another one. -/
def put (index : Nat) (slot : Slot) : InPlace Rack Unit :=
  modify fun rack => { rack with slots := rack.slots.set index slot }

/-- Puts a new slot at an index, which begins the result blocks beside it as far as there are any. -/
def replace (index : Nat) (slot : Slot) : InPlace Rack Unit := do
  modify fun rack => { rack with guest := rack.guest.modify index slot.beginResult }
  modify fun rack => { rack with shared := rack.shared.modify index slot.beginResult }
  put index slot

/-- Applies a record to the slot at an index, once that slot is of the record's kind. -/
def receive (index : Nat) (record : Record) (version : Version) (map : AddressMap) :
    InPlace Rack Unit := do
  let old ← slotAt index
  if old.isReplacedBy record then replace index (.create (.ofByte record.kind))
  -- The slot is looked up again, as it may be a new one.
  let slot ← slotAt index
  put index (← slot.apply record version map)

/-- Reads and applies the records at some indices in turn. -/
def receiveEach (blob : Bytes) (version : Version) (map : AddressMap) :
    List Nat → InPlace Rack Unit
  | [] => pure ()
  | index :: later => do
    let record ← Record.readAt blob index
    receive index record version map
    receiveEach blob version map later

/-- Applies one record for every slot in place, and answers with the bytes that the records take. -/
def receiveAll (blob : Bytes) (version : Version) (map : AddressMap) : InPlace Rack Nat := do
  let size := (← get).size
  let want := recordSize * size
  if blob.length < want then throw (.shortParameter want blob.length)
  receiveEach blob version map (List.range size)
  pure want

/-- The rack after one record for every slot, with the bytes that the records take. -/
def update (rack : Rack) (blob : Bytes) (version : Version) (map : AddressMap) :
    Except Error (Rack × Nat) :=
  Prod.swap <$> InPlace.settled ((receiveAll blob version map).on rack)

/-- The status record of every slot. -/
def statuses (rack : Rack) : List Bytes := rack.slots.map Slot.status

/-- The rack after a frame. -/
def advance (rack : Rack) : Rack := { rack with slots := rack.slots.map Slot.advance }

/-- The rack with one of its slots after a frame, if there is such a slot. -/
def advanceOne (rack : Rack) (index : Nat) : Rack :=
  { rack with slots := rack.slots.modify index Slot.advance }

/-- The commands of slots in order, with the slots and the states after them. -/
def generateFrom (offset : Int16) (double : Bool) :
    List Slot → States → Except Fault (List Slot × States × List Command)
  | [], states => .ok ([], states, [])
  | slot :: rest, states => do
    -- Every slot sees the states that the slots before it have added.
    let (slot, states, commands) ← slot.generate offset double states
    let (rest, states, others) ← generateFrom offset double rest states
    pure (slot :: rest, states, commands ++ others)

/-- The commands of a frame for all slots, with the rack and the states after them. -/
def generate (rack : Rack) (offset : Int16) (double : Bool) (states : States) :
    Except Fault (Rack × States × List Command) := do
  let (slots, states, commands) ← generateFrom offset double rack.slots states
  pure ({ rack with slots }, states, commands)

/-- Blocks after the slots before them published their states; blocks without a slot stay. -/
def publishFrom (states : States) : List Slot → List ResultBlock → List ResultBlock
  | slot :: slots, block :: blocks => slot.publish states block :: publishFrom states slots blocks
  | _, blocks => blocks

/-- The rack after every slot with a live state published it to the processor's side. -/
def publish (rack : Rack) (states : States) : Rack :=
  { rack with shared := publishFrom states rack.slots rack.shared }

/-- Guest blocks after the slots took over the processor's blocks, as far as there are any. -/
def shareFrom : (index : Nat) → List Slot → (guest shared : List ResultBlock) → List ResultBlock
  | index, slot :: slots, block :: guest, result :: shared =>
    -- A slot that cannot take its block over keeps the old one and does not stop the others.
    ((slot.share index block result).toOption.getD block) ::
      shareFrom (index + 1) slots guest shared
  | _, _, guest, _ => guest

/-- The rack after the guest's side took over the processor's results. -/
def share (rack : Rack) : Rack :=
  { rack with guest := shareFrom 0 rack.slots rack.guest rack.shared }

end Rack

end Mixdown.Effect
