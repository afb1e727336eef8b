import Mixdown.Proofs.Effect.Rack
import Mixdown.Proofs.Effect.Result
import Mixdown.Proofs.Effect.Update
import Mixdown.Proofs.Effect.Validation

/-! Records change a rack bay by bay: each slot and its result blocks by their own record alone. -/

namespace Mixdown

/-- A map that answers for every range of the address space. -/
def AddressMap.Total (map : AddressMap) : Prop :=
  ∀ address size : UInt64, ∃ found, map.locate address.toNat size.toNat = .ok found

namespace Effect

/-- The kind that a slot has for a record; kinds that are not processed count as none. -/
def Kind.processed : Kind → Kind
  | .biquad => .biquad
  | .limiter => .limiter
  | .compressor => .compressor
  | _ => .none

/-- What a block becomes when a slot of a kind begins it: only the bytes of the kind change. -/
def Kind.Begins (old new : ResultBlock) : Kind → Prop
  | .limiter => old.Carries Limiter.State.reader 0x28 .initial new
  | .compressor => old.Carries Compressor.Statistics.reader 0x20 .initial new
  | _ => new = old

/-- What a record sets of a base, which it enables when it asks for that and it is granted. -/
structure Base.Takes (old : Base) (record : Record) (granted : Prop) (new : Base) : Prop where
  mixId : new.mixId = record.mixId
  order : new.order = record.order
  enabled : new.enabled ↔ record.enabled ≠ 0 ∧ granted
  usage : new.usage = old.usage

/-- A base has the address that a map finds for the work buffer of a record, or else none. -/
def Base.Maps (record : Record) (map : AddressMap) (new : Base) : Prop :=
  ∃ address, map.locate record.workBuffer.toNat record.workBufferSize.toNat = .ok address ∧
    new.workBuffer = address.getD 0

/-- What a record makes of a slot of its own kind: it sets the parameters, and not the states. -/
inductive Slot.Takes (record : Record) (version : Version) (map : AddressMap) : Slot → Slot → Prop
  | empty : Takes record version map .empty .empty
  /-- Parameters that the version does not accept are taken, but not enabled. -/
  | biquad {old new : BiquadSlot}
      (base : old.base.Takes record (new.parameters.Accepted version) new.base)
      (workBuffer : new.base.workBuffer = old.base.workBuffer)
      (parameters : BiquadParameters.reader.front? record.specific = some new.parameters)
      (states : new.states = old.states) : Takes record version map (.biquad old) (.biquad new)
  | limiter {old new : LimiterSlot} (base : old.base.Takes record True new.base)
      (workBuffer : new.base.Maps record map)
      (parameters : Limiter.Parameters.reader.front? record.specific = some new.parameters)
      (state : new.state = old.state) : Takes record version map (.limiter old) (.limiter new)
  /-- First records have no room for compressors. -/
  | ignored {old : CompressorSlot} (first : version = .first) :
      Takes record version map (.compressor old) (.compressor old)
  | compressor {old new : CompressorSlot} (second : version = .second)
      (base : old.base.Takes record True new.base) (workBuffer : new.base.Maps record map)
      (parameters : Compressor.Parameters.reader.front? record.specific = some new.parameters)
      (state : new.state = old.state) :
      Takes record version map (.compressor old) (.compressor new)

/-- A slot that no record has described and that has not run: all that it holds is zero. -/
structure Slot.Fresh (slot : Slot) : Prop where
  base : ∀ base ∈ slot.base?, base = ⟨0, 0, false, .new, 0⟩
  handles : ∀ handle ∈ slot.handles, handle = none
  parameters : ∀ bytes ∈ slot.parameters?, ∀ byte ∈ bytes, byte = 0

/-- What a record makes of a bay. -/
structure Bay.Receives (bay : Bay) (record : Record) (version : Version) (map : AddressMap)
    (new : Bay) : Prop where
  /-- The slot is of the record's kind, or empty when that kind is not processed. -/
  kind : new.slot.kind = (Kind.ofByte record.kind).processed
  /-- A slot that stays of its kind takes the record, and keeps its handles and its blocks. -/
  kept : new.slot.kind = bay.slot.kind → bay.slot.Takes record version map new.slot ∧
    new.slot.handles = bay.slot.handles ∧ new.guest = bay.guest ∧ new.shared = bay.shared
  /-- A slot whose kind changes is a fresh one that has taken the record, and begins its blocks. -/
  replaced : new.slot.kind ≠ bay.slot.kind →
    (∃ fresh : Slot, fresh.Fresh ∧ fresh.Takes record version map new.slot) ∧
      Option.Rel (fun old begun => new.slot.kind.Begins old begun) bay.guest new.guest ∧
      Option.Rel (fun old begun => new.slot.kind.Begins old begun) bay.shared new.shared

namespace Slot

variable {slot new : Slot} {record : Record} {version : Version} {map : AddressMap}

/-- A new slot is of the kind that is processed. -/
theorem create_kind (kind : Kind) : (create kind).kind = kind.processed := by
  cases kind <;> rfl

/-- A new slot begins a result block by what it publishes before it has heard anything. -/
theorem create_begins (kind : Kind) (block : ResultBlock) :
    kind.processed.Begins block ((create kind).beginResult block) := by
  -- Both kinds that publish anything begin by what they are read back from.
  cases kind with
  | limiter =>
    exact ResultBlock.carries_overwrite Limiter.State.takes_reader
      (Limiter.State.reads_encode _) (by decide) block
  | compressor =>
    exact ResultBlock.carries_overwrite Compressor.Statistics.takes_reader
      (Compressor.Statistics.reads_encode _) (by decide) block
  | _ => rfl

/-- A record replaces a slot exactly when the slot is not of the kind processed for it. -/
theorem isReplacedBy_iff : slot.isReplacedBy record ↔
    slot.kind ≠ (Kind.ofByte record.kind).processed := by
  simp [isReplacedBy, create_kind]

/-- The slot that takes a record is of the kind processed for it. -/
theorem target_kind (slot : Slot) (record : Record) :
    (slot.target record).kind = (Kind.ofByte record.kind).processed := by
  -- A slot that is not replaced is of the record's kind already.
  by_cases replaced : slot.isReplacedBy record
  · simp only [target, replaced, if_true, create_kind]
  · rw [target, if_neg replaced]
    exact not_not.mp (mt isReplacedBy_iff.mpr replaced)

/-- A new slot is fresh. -/
theorem create_fresh (kind : Kind) : (create kind).Fresh := by
  have base : ∀ base ∈ some Base.new, base = ⟨0, 0, false, .new, 0⟩ := fun base same =>
    (Option.some.inj same).symm
  -- Only three kinds make a slot that holds anything.
  cases kind with
  | biquad =>
    exact ⟨base, by simp [create, handles, BiquadSlot.new],
      by simp only [create, parameters?, BiquadSlot.new]; decide +kernel⟩
  | limiter =>
    exact ⟨base, by simp [create, handles, LimiterSlot.new],
      by simp only [create, parameters?, LimiterSlot.new]; decide +kernel⟩
  | compressor =>
    exact ⟨base, by simp [create, handles, CompressorSlot.new],
      by simp only [create, parameters?, CompressorSlot.new]; decide +kernel⟩
  | _ => exact ⟨by simp [create, base?], by simp [create, handles], by simp [create, parameters?]⟩

/-- A slot takes what stands in a record of its own kind. -/
theorem apply_takes (whole : record.specific.length = specificSize)
    (ran : slot.apply record version map = .ok new) : slot.Takes record version map new := by
  -- The bytes of a kind have room for the parameters of each kind, so these are always read.
  cases slot with
  | empty =>
    obtain rfl := Except.ok.inj ran
    exact .empty
  | biquad slot =>
    obtain rfl := Except.ok.inj ran
    obtain ⟨parameters, read⟩ := BiquadParameters.takes_reader.found
      (show 24 ≤ record.specific.length by rw [whole]; decide)
    have found := Reader.front?_eq_some.mpr ⟨_, read⟩
    simp only [BiquadSlot.receive, found]
    -- What enables the slot is the request and the check, which is met by what is accepted.
    refine .biquad ⟨rfl, rfl, ?_, rfl⟩ rfl found rfl
    rw [← BiquadParameters.isValid_iff, Bool.and_eq_true]
    exact and_congr_left' decide_eq_true_iff
  | limiter slot =>
    obtain ⟨parameters, read⟩ := Limiter.Parameters.takes_reader.found
      (show 44 ≤ record.specific.length by rw [whole]; decide)
    have found := Reader.front?_eq_some.mpr ⟨_, read⟩
    simp only [apply, LimiterSlot.receive, Base.mapWorkBuffer, found, bind_assoc, map_bind,
      bind_eq_ok] at ran
    obtain ⟨address, located, base, own, ran⟩ := ran
    obtain rfl := Except.ok.inj own
    obtain rfl := Except.ok.inj ran
    exact .limiter ⟨rfl, rfl, by simp [Base.receive], rfl⟩ ⟨address, located, rfl⟩ found rfl
  | compressor slot =>
    cases version with
    -- A first record is not looked at for a compressor.
    | first =>
      obtain rfl := Except.ok.inj ran
      exact .ignored rfl
    | second =>
      obtain ⟨parameters, read⟩ := Compressor.Parameters.takes_reader.found
        (show 64 ≤ record.specific.length by rw [whole]; decide)
      have found := Reader.front?_eq_some.mpr ⟨_, read⟩
      simp only [apply, CompressorSlot.receive, Base.mapWorkBuffer, found, bind_assoc, map_bind,
        bind_eq_ok] at ran
      obtain ⟨address, located, base, own, ran⟩ := ran
      obtain rfl := Except.ok.inj own
      obtain rfl := Except.ok.inj ran
      exact .compressor rfl ⟨rfl, rfl, by simp [Base.receive], rfl⟩ ⟨address, located, rfl⟩ found rfl

/-- A slot takes every record when each range has an answer in the map. -/
theorem exists_receive (total : map.Total) (slot : Slot) (record : Record) (version : Version) :
    ∃ new, slot.receive record version map = .ok new := by
  obtain ⟨address, located⟩ := total record.workBuffer record.workBufferSize
  -- Only limiters and compressors ask the map, which answers for every range.
  rw [receive]
  cases slot.target record with
  | empty => exact ⟨_, rfl⟩
  | biquad slot => exact ⟨_, rfl⟩
  | limiter slot =>
    simp only [apply, LimiterSlot.receive, Base.mapWorkBuffer, located, ok_bind, pure_eq_ok, map_ok]
    exact ⟨_, rfl⟩
  | compressor slot =>
    cases version with
    | first => exact ⟨_, rfl⟩
    | second =>
      simp only [apply, CompressorSlot.receive, Base.mapWorkBuffer, located, ok_bind, pure_eq_ok,
        map_ok]
      exact ⟨_, rfl⟩

end Slot

/-- A record that does not replace the slot leaves the blocks beside it. -/
theorem Slot.refreshed_kept {slot : Slot} {record : Record} (stays : ¬slot.isReplacedBy record)
    (block : Option ResultBlock) : block.map (slot.refreshed record) = block := by
  have same : slot.refreshed record = id := funext fun block => if_neg stays
  rw [same, Option.map_id, id]

/-- A record that replaces the slot begins the blocks beside it, as far as there are any. -/
theorem Slot.refreshed_begins {slot : Slot} {record : Record} (replaced : slot.isReplacedBy record)
    (block : Option ResultBlock) :
    Option.Rel (fun old begun => (Kind.ofByte record.kind).processed.Begins old begun) block
      (block.map (slot.refreshed record)) := by
  cases block with
  | none => exact .none
  | some block =>
    refine .some ?_
    rw [refreshed, if_pos replaced, target, if_pos replaced]
    exact create_begins _ block

/-- A bay that takes a record keeps what belongs to its kind, or begins anew with its slot. -/
theorem Bay.receives {bay new : Bay} {record : Record} {version : Version} {map : AddressMap}
    (whole : record.specific.length = specificSize)
    (ran : bay.receive record version map = .ok new) : bay.Receives record version map new := by
  obtain ⟨slot, received, ran⟩ := bind_eq_ok.mp ran
  obtain rfl := Except.ok.inj ran
  obtain ⟨kind, handles, -⟩ := Slot.apply_keeps received
  have takes := Slot.apply_takes whole received
  rw [Slot.target_kind] at kind
  -- The target is the slot or a fresh one, by whether the kind changes.
  constructor
  case kind => exact kind
  case kept =>
    -- A slot that stays of its kind is not replaced, so that nothing is begun anew.
    intro same
    have stays : ¬bay.slot.isReplacedBy record := fun replaced =>
      Slot.isReplacedBy_iff.mp replaced (same.symm.trans kind)
    rw [Slot.target, if_neg stays] at handles takes
    exact ⟨takes, handles, Slot.refreshed_kept stays _, Slot.refreshed_kept stays _⟩
  case replaced =>
    intro changes
    have replaced : bay.slot.isReplacedBy record :=
      Slot.isReplacedBy_iff.mpr fun same => changes (kind.trans same.symm)
    rw [Slot.target, if_pos replaced] at takes
    simp only [kind]
    exact ⟨⟨_, Slot.create_fresh _, takes⟩, Slot.refreshed_begins replaced _,
      Slot.refreshed_begins replaced _⟩

namespace Rack

variable {rack after : Rack} {blob : Bytes} {version : Version} {map : AddressMap} {taken : Nat}

/-- A blob that is long enough is taken when each range has an answer in the map. -/
theorem exists_receiveAll_of_total (total : map.Total)
    (enough : recordSize * rack.size ≤ blob.length) (version : Version) :
    ∃ after, (receiveAll blob version map).on rack = (.ok (recordSize * rack.size), after) :=
  exists_receiveAll enough fun _ slot record _ _ => slot.exists_receive total record version

/-- A call in place turns each bay into what the record in its place makes of it. -/
theorem bay?_of_receiveAll (ran : (receiveAll blob version map).on rack = (.ok taken, after))
    {index : Nat} {bay : Bay} (found : rack.bay? index = some bay) :
    ∃ record new, Record.at? blob index = some record ∧
      bay.receive record version map = .ok new ∧ after.bay? index = some new := by
  obtain ⟨-, -, ran⟩ := receiveAll_cases ran
  obtain ⟨-, each, -⟩ := receiveEach_cases List.nodup_range ran
  obtain ⟨slot, held, -⟩ := Option.map_eq_some_iff.mp found
  obtain ⟨inside, -⟩ := List.getElem?_eq_some_iff.mp held
  -- The records are taken one slot after the other, each slot's own once.
  obtain ⟨record, own, new, named, before, received, behind⟩ := each index (List.mem_range.mpr inside)
  obtain rfl := Option.some.inj (found.symm.trans before)
  exact ⟨record, new, named, received, behind⟩

/-- A call in place keeps the number of slots, and the blocks that stand beside none of them. -/
theorem receiveAll_rest (ran : (receiveAll blob version map).on rack = (.ok taken, after)) :
    after.size = rack.size ∧ ∀ index, rack.size ≤ index →
      after.guest[index]? = rack.guest[index]? ∧ after.shared[index]? = rack.shared[index]? := by
  obtain ⟨-, -, ran⟩ := receiveAll_cases ran
  obtain ⟨size, -, kept⟩ := receiveEach_cases List.nodup_range ran
  refine ⟨size, fun index outside => ?_⟩
  -- No record belongs to a column behind the last slot.
  have away : index ∉ List.range rack.size := by simpa using outside
  exact Prod.mk.inj (congrArg Prod.snd (kept index away))

/-- Bytes behind the records have no influence. -/
theorem receiveAll_congr {other : Bytes} (enough : recordSize * rack.size ≤ blob.length)
    (same : other.take (recordSize * rack.size) = blob.take (recordSize * rack.size))
    (version : Version) (map : AddressMap) :
    (receiveAll other version map).on rack = (receiveAll blob version map).on rack := by
  -- The other blob is long enough too, since its front is as long.
  have long : recordSize * rack.size ≤ other.length := by
    have lengths := congrArg List.length same
    rw [List.length_take, List.length_take] at lengths
    omega
  have each := receiveEach_congr version map fun index here =>
    Record.chunk_congr same (List.mem_range.mp here)
  rw [receiveAll_enough enough, receiveAll_enough long, each]

/--
A blob is refused, and then nothing has been written, exactly when it is too short for one record a
slot. A blob that is long enough is taken as far as the records go. Then every bay is what its own
record makes of it: a slot that stays of its kind takes the record and keeps its handles and blocks,
and any other makes way for a fresh slot that takes the record and begins its blocks; blocks that
stand beside no slot stay as they are.
-/
theorem update_slotwise (rack : Rack) (blob : Bytes) (version : Version) {map : AddressMap}
    (total : map.Total) :
    ((receiveAll blob version map).on rack =
          (.error (.shortParameter (recordSize * rack.size) blob.length), rack) ↔
        blob.length < recordSize * rack.size) ∧
      (recordSize * rack.size ≤ blob.length → ∃ after,
        (receiveAll blob version map).on rack = (.ok (recordSize * rack.size), after) ∧
        (∀ other, other.take (recordSize * rack.size) = blob.take (recordSize * rack.size) →
          (receiveAll other version map).on rack = (.ok (recordSize * rack.size), after)) ∧
        after.size = rack.size ∧
        (∀ index bay, rack.bay? index = some bay → ∃ record new,
          Record.at? blob index = some record ∧ bay.receive record version map = .ok new ∧
          after.bay? index = some new ∧ bay.Receives record version map new) ∧
        ∀ index, rack.size ≤ index → after.guest[index]? = rack.guest[index]? ∧
          after.shared[index]? = rack.shared[index]?) := by
  constructor
  · constructor
    · intro refused
      refine Nat.lt_of_not_le fun enough => ?_
      obtain ⟨after, ran⟩ := exists_receiveAll_of_total total enough version
      cases refused.symm.trans ran
    · -- A short blob is refused before the first slot is looked at.
      exact fun short => receiveAll_short short version map
  · intro enough
    obtain ⟨after, ran⟩ := exists_receiveAll_of_total total enough version
    obtain ⟨size, rest⟩ := receiveAll_rest ran
    refine ⟨after, ran, fun other same => (receiveAll_congr enough same version map).trans ran, size,
      fun index bay found => ?_, rest⟩
    obtain ⟨record, new, own, received, made⟩ := bay?_of_receiveAll ran found
    exact ⟨record, new, own, received, made,
      Bay.receives (Record.specific_length_of_at? own) received⟩

/-- A limiter goes on with its state under new parameters, while a compressor takes the place of the
filter behind it and begins the one block that stands there. -/
theorem update_slotwise_replaced :
    let limiter : Limiter.Parameters := { Limiter.Parameters.zero with channels := 2, attack := 1 }
    let compressor : Compressor.Parameters := { Compressor.Parameters.zero with ratio := 2 }
    let rack : Rack :=
      ⟨[.limiter ⟨.new, .zero, some 3⟩, .biquad .new], [.zero, .zero], [.replicate _ 1]⟩
    let blob : Bytes :=
      { Record.create .limiter 7 limiter.encode with mixId := 5 }.encode ++
        (Record.create .compressor 8 compressor.encode).encode ++ [7]
    AddressMap.identity.Total ∧ recordSize * rack.size ≤ blob.length ∧
      ∃ after first second begun, (receiveAll blob .second .identity).on rack = (.ok 0x180, after) ∧
        after.bay? 0 = some ⟨.limiter first, some .zero, some (.replicate _ 1)⟩ ∧
        after.bay? 1 = some ⟨.compressor second, some begun, none⟩ ∧
        (first.parameters = limiter ∧ first.base.mixId = 5 ∧ first.base.order = 7 ∧
          first.base.enabled ∧ first.state = some 3) ∧
        (second.parameters = compressor ∧ second.base.mixId = 0 ∧ second.base.order = 8 ∧
          second.base.enabled ∧ second.state = none) ∧
        begun.view? Compressor.Statistics.reader = some .initial := by
  intro limiter compressor rack blob
  have total : AddressMap.identity.Total := fun _ _ => ⟨_, rfl⟩
  have enough : recordSize * rack.size ≤ blob.length := by decide +kernel
  obtain ⟨-, taken⟩ := update_slotwise rack blob .second total
  obtain ⟨after, ran, -, -, bays, -⟩ := taken enough
  obtain ⟨record, ⟨slot, guest, shared⟩, own, -, here, receives⟩ := bays 0 _ rfl
  obtain ⟨other, ⟨made, begun, missing⟩, behind, -, there, receivesToo⟩ := bays 1 _ rfl
  -- Both records are read back from the blob.
  have own : record = { Record.create .limiter 7 limiter.encode with mixId := 5 } :=
    Option.some.inj (own.symm.trans (by decide +kernel))
  have behind : other = .create .compressor 8 compressor.encode :=
    Option.some.inj (behind.symm.trans (by decide +kernel))
  subst own behind
  -- The first slot stays a limiter, and the second one becomes a compressor.
  obtain ⟨takes, -, rfl, rfl⟩ := receives.kept receives.kind
  have changes : made.kind ≠ Kind.biquad := by
    rw [show made.kind = .compressor from receivesToo.kind]
    decide
  obtain ⟨⟨fresh, new, takesToo⟩, begins, absent⟩ := receivesToo.replaced changes
  have kind : made.kind = .compressor := receivesToo.kind
  cases takes with
  | @limiter _ first base _ parameters state =>
  have read := (Limiter.Parameters.reads_encode limiter).front?_padTo specificSize
  cases takesToo with
  | @compressor old second _ baseToo _ parametersToo stateToo =>
    have readToo := (Compressor.Parameters.reads_encode compressor).front?_padTo specificSize
    cases absent
    cases begins with
    | some carries =>
      exact ⟨total, enough, after, first, second, _, ran, here, there,
        ⟨Option.some.inj (parameters.symm.trans read), base.mixId, base.order,
          base.enabled.mpr ⟨by decide, trivial⟩, state⟩,
        ⟨Option.some.inj (parametersToo.symm.trans readToo), baseToo.mixId, baseToo.order,
          baseToo.enabled.mpr ⟨by decide, trivial⟩,
          stateToo.trans (new.handles _ (by simp [Slot.handles]))⟩, carries.shows⟩
  | ignored first => cases first
  | _ => cases kind

end Rack

end Effect

end Mixdown
