import Mixdown.Effect.Rack
import Mixdown.Proofs.Effect.Record

/-! Records are applied to a rack in place, each of them to the slot and the blocks at its own index. -/

namespace Mixdown.Effect

/-- A slot of a rack with the result blocks beside it, as far as there are any. -/
structure Bay where
  slot : Slot
  guest : Option ResultBlock
  shared : Option ResultBlock

/-- A block beside a slot after a record, which begins it anew when it replaces the slot. -/
def Slot.refreshed (slot : Slot) (record : Record) (block : ResultBlock) : ResultBlock :=
  if slot.isReplacedBy record then (slot.target record).beginResult block else block

/-- The bay after a record. -/
def Bay.receive (bay : Bay) (record : Record) (version : Version) (map : AddressMap) :
    Except Fault Bay := do
  let slot ← bay.slot.receive record version map
  pure { slot
         guest := bay.guest.map (bay.slot.refreshed record)
         shared := bay.shared.map (bay.slot.refreshed record) }

section Reading

variable {blob : Bytes} {index : Nat} {record : Record}

/-- A record that stands at its place is read there. -/
theorem Record.readAt_eq (found : at? blob index = some record) :
    readAt blob index = .ok record := by
  simp only [readAt, found]

/-- A record that is read stands at its place. -/
theorem Record.at?_of_readAt (read : readAt blob index = .ok record) :
    at? blob index = some record := by
  cases found : at? blob index with
  | none => simp [readAt, found] at read
  | some own => simpa [readAt, found] using read

end Reading

namespace Rack

open InPlace (on on_bind on_bind_refused on_bind_eq_ok)

variable {rack after : Rack} {blob : Bytes} {version : Version} {map : AddressMap}
  {index taken : Nat} {slot new : Slot} {record : Record}

/-- What stands at an index, as far as there is anything. -/
def column (rack : Rack) (index : Nat) :
    Option Slot × Option ResultBlock × Option ResultBlock :=
  (rack.slots[index]?, rack.guest[index]?, rack.shared[index]?)

/-- The bay at an index, if there is such a slot. -/
def bay? (rack : Rack) (index : Nat) : Option Bay :=
  rack.slots[index]?.map fun slot => ⟨slot, rack.guest[index]?, rack.shared[index]?⟩

/-- The rack once the slot at an index has become another one by a record. -/
def settle (rack : Rack) (index : Nat) (slot : Slot) (record : Record) (new : Slot) : Rack where
  slots := rack.slots.set index new
  guest := rack.guest.modify index (slot.refreshed record)
  shared := rack.shared.modify index (slot.refreshed record)

/-- Only the column of its index is changed when a slot is settled. -/
theorem settle_column_ne {other : Nat} (apart : other ≠ index) :
    (rack.settle index slot record new).column other = rack.column other := by
  have away : index ≠ other := apart.symm
  simp [settle, column, away]

/-- In its own column a settled slot stands beside the blocks that the record refreshes. -/
theorem settle_bay? (found : rack.slots[index]? = some slot) :
    (rack.settle index slot record new).bay? index =
      some ⟨new, rack.guest[index]?.map (slot.refreshed record),
        rack.shared[index]?.map (slot.refreshed record)⟩ := by
  obtain ⟨inside, -⟩ := List.getElem?_eq_some_iff.mp found
  simp [settle, bay?, inside]

/-- Where two racks have the same column, they have the same bay. -/
theorem bay?_congr {other : Rack} (same : other.column index = rack.column index) :
    other.bay? index = rack.bay? index := by
  obtain ⟨slots, blocks⟩ := Prod.mk.inj same
  obtain ⟨guests, shared⟩ := Prod.mk.inj blocks
  simp only [bay?, slots, guests, shared]

/-- A slot is looked up without a change. -/
theorem on_slotAt (found : rack.slots[index]? = some slot) :
    (slotAt index).on rack = (.ok slot, rack) := by
  rw [slotAt, InPlace.on_get, found]
  rfl

/-- A slot that was looked up is there. -/
theorem of_slotAt {left : Rack} (looked : (slotAt index).on rack = (.ok slot, left)) :
    rack.slots[index]? = some slot ∧ left = rack := by
  -- A place without a slot ends the call, and the rack is only looked at.
  cases found : rack.slots[index]? with
  | none =>
    rw [slotAt, InPlace.on_get, found] at looked
    cases looked
  | some held =>
    rw [on_slotAt found] at looked
    cases looked
    exact ⟨rfl, rfl⟩

/-- A slot takes a record in place, once another slot has been put there if the record asks for it. -/
theorem on_receive (found : rack.slots[index]? = some slot) (record : Record) (version : Version)
    (map : AddressMap) :
    ∃ left : Rack,
      (∀ new, { left with slots := left.slots.set index new } =
        rack.settle index slot record new) ∧
      (receive index record version map).on rack =
        on (do put index (← (slot.target record).apply record version map)) left := by
  -- Either way the slot that is looked up second is the one that takes the record.
  rw [receive, on_bind (on_slotAt found)]
  by_cases replaced : slot.isReplacedBy record
  · -- The new slot begins both blocks, and is then the one that is looked up.
    have target : slot.target record = .create (.ofByte record.kind) := if_pos replaced
    have begins : slot.refreshed record = (slot.target record).beginResult :=
      funext fun _ => if_pos replaced
    obtain ⟨inside, -⟩ := List.getElem?_eq_some_iff.mp found
    refine ⟨⟨rack.slots.set index (slot.target record),
      rack.guest.modify index (slot.refreshed record),
      rack.shared.modify index (slot.refreshed record)⟩, fun new => by simp [settle], ?_⟩
    rw [if_pos replaced, begins, target]
    exact on_bind (on_slotAt (List.getElem?_set_self inside))
  · have target : slot.target record = slot := if_neg replaced
    have stays : slot.refreshed record = id := funext fun _ => if_neg replaced
    refine ⟨rack, fun new => by simp [settle, stays], ?_⟩
    rw [if_neg replaced, target]
    exact on_bind (on_slotAt found)

/-- A record that a slot takes settles the slot in place. -/
theorem receive_eq (found : rack.slots[index]? = some slot)
    (received : slot.receive record version map = .ok new) :
    (receive index record version map).on rack =
      (.ok (), rack.settle index slot record new) := by
  obtain ⟨left, settles, run⟩ := on_receive found record version map
  rw [run, show (slot.target record).apply record version map = .ok new from received]
  exact congrArg _ (settles new)

/-- What a record has changed in place is a slot that has taken it, with the blocks beside it. -/
theorem receive_cases (ran : (receive index record version map).on rack = (.ok (), after)) :
    ∃ slot new, rack.slots[index]? = some slot ∧ slot.receive record version map = .ok new ∧
      after = rack.settle index slot record new := by
  obtain ⟨slot, _, looked, -⟩ := on_bind_eq_ok.mp ran
  obtain ⟨found, -⟩ := of_slotAt looked
  cases received : slot.receive record version map with
  | ok new =>
    rw [receive_eq found received] at ran
    exact ⟨slot, new, found, received, (congrArg Prod.snd ran).symm⟩
  | error fault =>
    -- A slot that faults over the record ends the call.
    obtain ⟨left, -, run⟩ := on_receive found record version map
    rw [run, show (slot.target record).apply record version map = .error fault from received] at ran
    cases ran

/-- A record that is refused in place has met with a fault. -/
theorem receive_refused {refusal : Error}
    (ran : (receive index record version map).on rack = (.error refusal, after)) :
    ∃ fault, refusal = .fault fault := by
  cases found : rack.slots[index]? with
  | none =>
    have missing : (slotAt index).on rack = (.error (.fault .outOfBounds), rack) := by
      rw [slotAt, InPlace.on_get, found]
      rfl
    rw [receive, on_bind_refused missing] at ran
    cases ran
    exact ⟨.outOfBounds, rfl⟩
  | some slot =>
    -- A slot that is there takes the record, or faults over it.
    cases received : slot.receive record version map with
    | ok new =>
      rw [receive_eq found received] at ran
      cases ran
    | error fault =>
      obtain ⟨left, -, run⟩ := on_receive found record version map
      rw [run, show (slot.target record).apply record version map = .error fault from received] at ran
      cases ran
      exact ⟨fault, rfl⟩

/-- Records in turn change the columns of their indices, each by its own record, and no others. -/
theorem receiveEach_cases {indices : List Nat} (distinct : indices.Nodup)
    (ran : (receiveEach blob version map indices).on rack = (.ok (), after)) :
    after.size = rack.size ∧
      (∀ index ∈ indices, ∃ record bay new, Record.at? blob index = some record ∧
        rack.bay? index = some bay ∧ bay.receive record version map = .ok new ∧
        after.bay? index = some new) ∧
      ∀ other, other ∉ indices → after.column other = rack.column other := by
  induction indices generalizing rack with
  | nil =>
    cases ran
    exact ⟨rfl, by simp, fun _ _ => rfl⟩
  | cons index later ih =>
    obtain ⟨fresh, distinct⟩ := List.nodup_cons.mp distinct
    -- The call reads a record, lets its slot take it and goes on to the later ones.
    obtain ⟨record, _, read, ran⟩ := on_bind_eq_ok.mp ran
    rw [InPlace.on_lift] at read
    obtain ⟨own, rfl⟩ := Prod.mk.inj read
    have named := Record.at?_of_readAt own
    obtain ⟨_, middle, first, ran⟩ := on_bind_eq_ok.mp ran
    obtain ⟨slot, new, found, received, rfl⟩ := receive_cases first
    obtain ⟨size, each, kept⟩ := ih distinct ran
    -- What the record finds is the column of its index as it was at first.
    have bay : rack.bay? index =
        some ⟨slot, rack.guest[index]?, rack.shared[index]?⟩ := by rw [bay?, found]; rfl
    refine ⟨size.trans List.length_set, fun place here => ?_, fun place away => ?_⟩
    · rcases List.mem_cons.mp here with rfl | here
      · -- The later records leave the column that this one has changed.
        have stays := bay?_congr (kept place fresh)
        exact ⟨record, _, _, named, bay, by simp only [Bay.receive, received, ok_bind, pure_eq_ok],
          stays.trans (settle_bay? found)⟩
      · -- A later record finds its column as it was, since the indices are distinct.
        obtain ⟨own, old, made, there, before, turns, stands⟩ := each place here
        have apart : place ≠ index := fun same => fresh (same ▸ here)
        exact ⟨own, old, made, there, (bay?_congr (settle_column_ne apart)).symm.trans before,
          turns, stands⟩
    · obtain ⟨apart, away⟩ := not_or.mp (mt List.mem_cons.mpr away)
      exact (kept place away).trans (settle_column_ne apart)

/-- Records in turn are taken when each slot among them takes its own. -/
theorem exists_receiveEach {indices : List Nat} (distinct : indices.Nodup)
    (each : ∀ index ∈ indices, ∃ record slot new, Record.at? blob index = some record ∧
      rack.slots[index]? = some slot ∧ slot.receive record version map = .ok new) :
    ∃ after, (receiveEach blob version map indices).on rack = (.ok (), after) := by
  induction indices generalizing rack with
  | nil => exact ⟨rack, rfl⟩
  | cons index later ih =>
    obtain ⟨fresh, distinct⟩ := List.nodup_cons.mp distinct
    obtain ⟨record, slot, new, named, found, received⟩ := each index (by simp)
    obtain ⟨after, ran⟩ := @ih (rack.settle index slot record new) distinct fun place here => by
      -- The slots of the later records are not the one that has been settled.
      obtain ⟨own, old, made, there, held, turns⟩ := each place (by simp [here])
      have apart : place ≠ index := fun same => fresh (same ▸ here)
      exact ⟨own, old, made, there,
        (congrArg Prod.fst (settle_column_ne apart)).trans held, turns⟩
    refine ⟨after, ?_⟩
    rw [receiveEach, Record.readAt_eq named, on_bind (InPlace.on_lift rack (.ok record)),
      on_bind (receive_eq found received), ran]

/-- Records that are all there are refused for a fault only. -/
theorem receiveEach_refused {indices : List Nat} {refusal : Error}
    (whole : ∀ index ∈ indices, ∃ record, Record.at? blob index = some record)
    (ran : (receiveEach blob version map indices).on rack = (.error refusal, after)) :
    ∃ fault, refusal = .fault fault := by
  -- Every record is read, so that only a slot can refuse the call.
  induction indices generalizing rack with
  | nil => cases ran
  | cons index later ih =>
    obtain ⟨record, named⟩ := whole index (by simp)
    rw [receiveEach, Record.readAt_eq named, on_bind (InPlace.on_lift rack (.ok record))] at ran
    rcases first : (receive index record version map).on rack with ⟨refused | _, left⟩
    · rw [on_bind_refused first] at ran
      obtain ⟨same, -⟩ := Prod.mk.inj ran
      obtain rfl := Except.error.inj same
      exact receive_refused first
    · rw [on_bind first] at ran
      exact ih (fun place here => whole place (by simp [here])) ran

/-- Blobs with the same bytes at all indices are applied alike. -/
theorem receiveEach_congr (version : Version) (map : AddressMap) {other : Bytes} {indices : List Nat}
    (same : ∀ index ∈ indices, Record.chunk other index = Record.chunk blob index) :
    receiveEach other version map indices = receiveEach blob version map indices := by
  -- Records are read from nothing but the bytes at their own indices.
  induction indices with
  | nil => rfl
  | cons index later ih =>
    rw [receiveEach, receiveEach, ih fun place here => same place (by simp [here])]
    simp only [Record.readAt, Record.at?, same index (by simp)]

/-- A blob that is too short is refused before anything is written. -/
theorem receiveAll_short (short : blob.length < recordSize * rack.size) (version : Version)
    (map : AddressMap) : (receiveAll blob version map).on rack =
      (.error (.shortParameter (recordSize * rack.size) blob.length), rack) := by
  -- The length is looked at first, and the refusal ends the call.
  rw [receiveAll, InPlace.on_get, if_pos short, on_bind_refused (InPlace.on_throw rack _)]

/-- A blob that is long enough is applied record by record. -/
theorem receiveAll_enough (enough : recordSize * rack.size ≤ blob.length) (version : Version)
    (map : AddressMap) : (receiveAll blob version map).on rack =
      on (do receiveEach blob version map (List.range rack.size); pure (recordSize * rack.size))
        rack := by
  rw [receiveAll, InPlace.on_get, if_neg (Nat.not_lt.mpr enough)]

/-- A blob that was taken was long enough, and one record was applied to every slot. -/
theorem receiveAll_cases (ran : (receiveAll blob version map).on rack = (.ok taken, after)) :
    recordSize * rack.size ≤ blob.length ∧ taken = recordSize * rack.size ∧
      (receiveEach blob version map (List.range rack.size)).on rack = (.ok (), after) := by
  -- A blob that is too short is refused, and does not answer.
  rcases Nat.lt_or_ge blob.length (recordSize * rack.size) with short | enough
  · rw [receiveAll_short short] at ran
    cases ran
  · rw [receiveAll_enough enough] at ran
    obtain ⟨_, left, each, ran⟩ := on_bind_eq_ok.mp ran
    cases ran
    exact ⟨enough, rfl, each⟩

/-- A blob that is refused for no fault has been refused before anything was written. -/
theorem receiveAll_refused {refusal : Error}
    (ran : (receiveAll blob version map).on rack = (.error refusal, after)) :
    (∃ fault, refusal = .fault fault) ∨ after = rack := by
  -- The length is the only thing that a blob is refused for without a fault.
  rcases Nat.lt_or_ge blob.length (recordSize * rack.size) with short | enough
  · rw [receiveAll_short short] at ran
    exact .inr (congrArg Prod.snd ran).symm
  · -- A blob that is long enough has a record for every slot.
    refine .inl ?_
    have whole : ∀ index ∈ List.range rack.size, ∃ record, Record.at? blob index = some record :=
      fun index here => Record.exists_at?
        (Nat.le_trans (Nat.mul_le_mul_left recordSize (List.mem_range.mp here)) enough)
    rw [receiveAll_enough enough] at ran
    rcases each : (receiveEach blob version map (List.range rack.size)).on rack with ⟨refused | _, left⟩
    · rw [on_bind_refused each] at ran
      obtain ⟨same, -⟩ := Prod.mk.inj ran
      obtain rfl := Except.error.inj same
      exact receiveEach_refused whole each
    · rw [on_bind each] at ran
      cases ran

/-- An update tells of the call in place what it answers and leaves, if it is not refused. -/
theorem update_eq_ok : rack.update blob version map = .ok (after, taken) ↔
    (receiveAll blob version map).on rack = (.ok taken, after) := by
  rw [update]
  rcases (receiveAll blob version map).on rack with ⟨refusal | answer, left⟩
  · simp [InPlace.settled, Functor.map, Except.map]
  · simp [InPlace.settled, and_comm]

/-- A blob is taken when every slot takes the record in its place. -/
theorem exists_receiveAll (enough : recordSize * rack.size ≤ blob.length)
    (each : ∀ index slot record, rack.slots[index]? = some slot →
      Record.at? blob index = some record → ∃ new, slot.receive record version map = .ok new) :
    ∃ after, (receiveAll blob version map).on rack = (.ok (recordSize * rack.size), after) := by
  obtain ⟨after, ran⟩ := exists_receiveEach List.nodup_range fun index here => by
    -- The blob has a record for every slot.
    have inside := List.mem_range.mp here
    obtain ⟨record, named⟩ := Record.exists_at?
      (Nat.le_trans (Nat.mul_le_mul_left recordSize inside) enough)
    have found := List.getElem?_eq_getElem inside
    obtain ⟨new, received⟩ := each index _ record found named
    exact ⟨record, _, new, named, found, received⟩
  exact ⟨after, by rw [receiveAll_enough enough, on_bind ran]; rfl⟩

/-- After an update each slot is what the record in its place has made of the slot there. -/
theorem exists_of_update (ran : rack.update blob version map = .ok (after, taken)) {index : Nat}
    {slot : Slot} (found : after.slots[index]? = some slot) :
    ∃ old record, rack.slots[index]? = some old ∧ Record.at? blob index = some record ∧
      old.receive record version map = .ok slot := by
  obtain ⟨-, -, ran⟩ := receiveAll_cases (update_eq_ok.mp ran)
  obtain ⟨size, each, -⟩ := receiveEach_cases List.nodup_range ran
  obtain ⟨inside, -⟩ := List.getElem?_eq_some_iff.mp found
  obtain ⟨record, bay, new, named, before, received, behind⟩ :=
    each index (List.mem_range.mpr (size ▸ inside))
  obtain ⟨old, held, rfl⟩ := Option.map_eq_some_iff.mp before
  obtain ⟨made, turns, received⟩ := bind_eq_ok.mp received
  obtain rfl := Except.ok.inj received
  -- The slot that stands there is the one of the bay.
  obtain ⟨own, stands, same⟩ := Option.map_eq_some_iff.mp behind
  obtain rfl := Option.some.inj (found.symm.trans stands)
  obtain rfl := congrArg Bay.slot same
  exact ⟨old, record, held, named, turns⟩

end Rack

end Mixdown.Effect
