import Mixdown.Proofs.Effect.Lifecycle
import Mixdown.Proofs.Effect.Window

/-!
Commands are made for a slot as long as none of the twelve indices of its record wraps around, be its
channel in use or not; otherwise making them faults.
-/

namespace Mixdown

/-- Values that are each checked are found for a list when no check fails, and a fault otherwise. -/
theorem mapM_checked (fault : ε) {fails : α → Prop} [DecidablePred fails] (value : α → β)
    (items : List α) :
    items.mapM (fun item => if fails item then Except.error fault else .ok (value item)) =
      if ∃ item ∈ items, fails item then .error fault else .ok (items.map value) := by
  induction items with
  | nil => simp
  | cons item items ih =>
    rw [List.mapM_cons, ih]
    -- The first item decides when it fails, and the others do when it does not.
    by_cases first : fails item
    · simp [first]
    · by_cases others : ∃ item ∈ items, fails item
      · simp [first, others]
      · simp [first, others]

namespace Reader

/-- Signed bytes are those at the front of the string, in their order. -/
theorem vector_int8 {n : Nat} {bytes rest : Bytes} {items : Vector Int8 n}
    (read : vector int8 n bytes = some (items, rest)) :
    items.toList = (bytes.take n).map UInt8.toInt8 ∧ rest = bytes.drop n := by
  -- The reader takes the last item after all others, so the induction splits it off at the back.
  induction n generalizing rest with
  | zero =>
    obtain ⟨rfl, rfl⟩ := Prod.mk.inj (Option.some.inj read)
    exact ⟨rfl, rfl⟩
  | succ n ih =>
    obtain ⟨⟨front, middle⟩, first, read⟩ := Option.bind_eq_some_iff.mp read
    obtain ⟨⟨last, behind⟩, second, read⟩ := Option.bind_eq_some_iff.mp read
    obtain ⟨rfl, rfl⟩ := Prod.mk.inj (Option.some.inj read)
    obtain ⟨fronts, rfl⟩ := ih first
    obtain ⟨⟨byte, left⟩, one, same⟩ := Option.map_eq_some_iff.mp ((map_apply _ _ _).symm.trans second)
    obtain ⟨rfl, rfl⟩ := Prod.mk.inj same
    have next : bytes.drop n = byte :: left := by
      cases parts : bytes.drop n with
      | nil => simp [parts, uint8] at one
      | cons byte left =>
        simp only [parts, uint8_cons, Option.some.injEq, Prod.mk.injEq] at one
        rw [one.1, one.2]
    have here : bytes[n]? = some byte := by
      rw [← List.head?_drop, next, List.head?_cons]
    constructor
    · rw [Vector.toList_push, fronts, List.take_add_one, here]
      simp
    · rw [← List.drop_drop, next]
      rfl

/-- Two vectors of signed bytes are those at the front of the string, one behind the other. -/
theorem vectors_int8 {n : Nat} {bytes middle rest : Bytes} {items others : Vector Int8 n}
    (first : vector int8 n bytes = some (items, middle))
    (second : vector int8 n middle = some (others, rest)) :
    items.toList ++ others.toList = (bytes.take (n + n)).map UInt8.toInt8 := by
  obtain ⟨front, rfl⟩ := vector_int8 first
  obtain ⟨back, -⟩ := vector_int8 second
  rw [front, back, ← List.map_append, List.take_add]

end Reader

/-- A limiter's indices are the first twelve bytes of its parameters. -/
theorem Limiter.Parameters.indices_of_read {parameters : Parameters} {bytes rest : Bytes}
    (read : reader bytes = some (parameters, rest)) :
    parameters.inputs.toList ++ parameters.outputs.toList =
      (bytes.take (maxChannels + maxChannels)).map UInt8.toInt8 := by
  obtain ⟨⟨inputs, middle⟩, first, read⟩ := Option.bind_eq_some_iff.mp read
  obtain ⟨⟨outputs, behind⟩, second, read⟩ := Option.bind_eq_some_iff.mp read
  -- What is read behind the indices does not change them.
  iterate 11 obtain ⟨_, -, read⟩ := Option.bind_eq_some_iff.mp read
  obtain ⟨rfl, -⟩ := Prod.mk.inj (Option.some.inj read)
  exact Reader.vectors_int8 first second

/-- A compressor's indices are the first twelve bytes of its parameters. -/
theorem Compressor.Parameters.indices_of_read {parameters : Parameters} {bytes rest : Bytes}
    (read : reader bytes = some (parameters, rest)) :
    parameters.inputs.toList ++ parameters.outputs.toList =
      (bytes.take (maxChannels + maxChannels)).map UInt8.toInt8 := by
  obtain ⟨⟨inputs, middle⟩, first, read⟩ := Option.bind_eq_some_iff.mp read
  obtain ⟨⟨outputs, behind⟩, second, read⟩ := Option.bind_eq_some_iff.mp read
  -- What is read behind the indices does not change them.
  iterate 16 obtain ⟨_, -, read⟩ := Option.bind_eq_some_iff.mp read
  obtain ⟨rfl, -⟩ := Prod.mk.inj (Option.some.inj read)
  exact Reader.vectors_int8 first second

namespace Effect

/-- An index that is counted from an offset under a check faults just when it would wrap around. -/
theorem checkedIndex_eq (index : Int8) (offset : Int16) :
    checkedIndex (index.toInt + offset.toInt) =
      if Wraps index offset then .error .overflow else .ok (index.toInt16 + offset) := by
  -- An index wraps just when the sum leaves the sixteen bits that the check allows.
  by_cases wraps : Wraps index offset
  · have outside : ¬(Int16.minValue.toInt ≤ index.toInt + offset.toInt ∧
        index.toInt + offset.toInt ≤ Int16.maxValue.toInt) := by
      rw [Wraps] at wraps
      omega
    rw [checkedIndex, if_neg outside, if_pos wraps]
  · have inside : Int16.minValue.toInt ≤ index.toInt + offset.toInt ∧
        index.toInt + offset.toInt ≤ Int16.maxValue.toInt := by
      rw [Wraps] at wraps
      omega
    rw [checkedIndex, if_pos inside, if_neg wraps, Int16.ofInt_add, Int16.ofInt_int8ToInt,
      Int16.ofInt_toInt]

/-- Indices that are counted from an offset fault together. -/
theorem shiftIndices_eq (indices : Vector Int8 maxChannels) (offset : Int16) :
    shiftIndices indices offset =
      if ∃ index ∈ indices.toList, Wraps index offset then .error .overflow
      else .ok (indices.map fun index => index.toInt16 + offset) := by
  have listed : Vector.toArray <$> shiftIndices indices offset = List.toArray <$>
      if ∃ index ∈ indices.toList, Wraps index offset then Except.error Fault.overflow
      else .ok (indices.toList.map fun index => index.toInt16 + offset) := by
    rw [shiftIndices, Vector.toArray_mapM, Array.mapM_eq_mapM_toList,
      funext fun index => checkedIndex_eq index offset, mapM_checked]
    rfl
  by_cases wraps : ∃ index ∈ indices.toList, Wraps index offset
  · rw [if_pos wraps] at listed ⊢
    cases found : shiftIndices indices offset with
    | error fault => simpa [found] using listed
    | ok shifted => simp [found] at listed
  · rw [if_neg wraps] at listed ⊢
    cases found : shiftIndices indices offset with
    | error fault => simp [found] at listed
    | ok shifted =>
      -- A vector is known by the list of its items.
      rw [found, map_ok, map_ok, Except.ok.injEq] at listed
      have same : shifted.toList = (indices.map fun index => index.toInt16 + offset).toList := by
        rw [Vector.toList_map]
        exact congrArg Array.toList listed
      rw [Vector.toList_inj.mp same]

/-- What is made of inputs and outputs that are counted from an offset is a fault when one wraps. -/
theorem shiftBoth_eq (inputs outputs : Vector Int8 maxChannels) (offset : Int16)
    (next : Vector Int16 maxChannels → Vector Int16 maxChannels → Except Fault α) :
    (shiftIndices inputs offset >>= fun sources => shiftIndices outputs offset >>= next sources) =
      if ∃ index ∈ inputs.toList ++ outputs.toList, Wraps index offset then .error .overflow
      else next (inputs.map fun index => index.toInt16 + offset)
        (outputs.map fun index => index.toInt16 + offset) := by
  simp only [shiftIndices_eq, List.mem_append, or_and_right, exists_or]
  -- The inputs are counted first, and the outputs only when no input wraps.
  by_cases first : ∃ index ∈ inputs.toList, Wraps index offset
  · rw [if_pos first, error_bind, if_pos (Or.inl first)]
  · rw [if_neg first, ok_bind]
    by_cases second : ∃ index ∈ outputs.toList, Wraps index offset
    · rw [if_pos second, error_bind, if_pos (Or.inr second)]
    · rw [if_neg second, if_neg (not_or.mpr ⟨first, second⟩), ok_bind]

namespace Slot

/-- The indices that a slot counts from the offset under a check; filters have none. -/
def indices : Slot → List Int8
  | .empty | .biquad _ => []
  | .limiter slot => slot.parameters.inputs.toList ++ slot.parameters.outputs.toList
  | .compressor slot => slot.parameters.inputs.toList ++ slot.parameters.outputs.toList

/-- None of a slot's indices wraps around behind an offset. -/
def Reaches (slot : Slot) (offset : Int16) : Prop := ∀ index ∈ slot.indices, ¬Wraps index offset

instance {slot : Slot} {offset : Int16} : Decidable (slot.Reaches offset) :=
  inferInstanceAs (Decidable (∀ _ ∈ _, _))

variable {slot after : Slot} {record : Record} {version : Version} {map : AddressMap}
  {offset : Int16}

/-- A slot reaches an offset just when there is no index of it that wraps around. -/
theorem reaches_iff : slot.Reaches offset ↔ ¬∃ index ∈ slot.indices, Wraps index offset := by
  simp [Reaches]

/-- Every slot reaches an offset that leaves room for any index. -/
theorem reaches_of_near (low : Int16.minValue.toInt - Int8.minValue.toInt ≤ offset.toInt)
    (high : offset.toInt ≤ Int16.maxValue.toInt - Int8.maxValue.toInt) : slot.Reaches offset := by
  -- A byte moves an offset by no more than its own range.
  intro index _ wraps
  have above := index.minValue_le_toInt
  have below := index.toInt_le
  rw [Wraps] at wraps
  omega

/-- Filters reach every offset. -/
theorem reaches_of_biquad (filters : slot.kind = .biquad) (offset : Int16) :
    slot.Reaches offset := by
  -- Filters add their indices with wrapping, and so none of them is checked.
  cases slot with
  | biquad slot => simp [Reaches, indices]
  | empty => simp [Slot.kind] at filters
  | limiter slot => simp [Slot.kind] at filters
  | compressor slot => simp [Slot.kind] at filters

/-- A slot that reaches the offset makes its commands. -/
theorem generate_of_reaches (reaches : slot.Reaches offset) (double : Bool) (states : States) :
    ∃ made, slot.generate offset double states = .ok made := by
  -- Effects with checked indices add the offset to each of them, and none leaves its word.
  cases slot with
  | empty => exact ⟨_, rfl⟩
  | biquad slot => exact ⟨_, rfl⟩
  | limiter slot =>
    have fits : ¬∃ index ∈ slot.parameters.inputs.toList ++ slot.parameters.outputs.toList,
        Wraps index offset := reaches_iff.mp reaches
    simp only [generate, LimiterSlot.command, shiftBoth_eq, if_neg fits, pure_eq_ok, ok_bind]
    exact ⟨_, rfl⟩
  | compressor slot =>
    have fits : ¬∃ index ∈ slot.parameters.inputs.toList ++ slot.parameters.outputs.toList,
        Wraps index offset := reaches_iff.mp reaches
    simp only [generate, CompressorSlot.command, shiftBoth_eq, if_neg fits, pure_eq_ok, ok_bind]
    exact ⟨_, rfl⟩

/-- A slot that does not reach the offset faults. -/
theorem generate_of_not_reaches (fails : ¬slot.Reaches offset) (double : Bool) (states : States) :
    slot.generate offset double states = .error .overflow := by
  -- One index that wraps is enough, whether or not its channel is in use.
  have fails := not_not.mp (mt reaches_iff.mpr fails)
  cases slot with
  | empty => simp [indices] at fails
  | biquad slot => simp [indices] at fails
  | limiter slot =>
    have fails : ∃ index ∈ slot.parameters.inputs.toList ++ slot.parameters.outputs.toList,
        Wraps index offset := fails
    simp only [generate, LimiterSlot.command, shiftBoth_eq, if_pos fails, error_bind]
  | compressor slot =>
    have fails : ∃ index ∈ slot.parameters.inputs.toList ++ slot.parameters.outputs.toList,
        Wraps index offset := fails
    simp only [generate, CompressorSlot.command, shiftBoth_eq, if_pos fails, error_bind]

/-- A record that is copied brings the indices, which are the first twelve bytes of its kind's. -/
theorem indices_of_receive (wide : record.specific.length = specificSize)
    (received : slot.receive record version map = .ok after) (copied : after.copies version)
    (checked : after.kind ≠ .biquad) :
    after.indices = (record.specific.take (maxChannels + maxChannels)).map UInt8.toInt8 := by
  -- The slot that has taken the record is of its own kind, and copied all of its bytes.
  obtain ⟨-, kind⟩ := apply_places received
  simp only [receive] at received
  generalize slot.target record = target at received kind
  cases target with
  | empty =>
    obtain rfl := Except.ok.inj received
    simp [copies] at copied
  | biquad slot => exact absurd kind checked
  | limiter slot =>
    obtain ⟨parameters, found⟩ := Limiter.Parameters.takes_reader.found
      (show 44 ≤ record.specific.length by rw [wide]; decide)
    have read : Limiter.Parameters.reader.front? record.specific = some parameters :=
      Reader.front?_eq_some.mpr ⟨_, found⟩
    simp only [apply, LimiterSlot.receive, read, Option.getD_some, map_bind, bind_eq_ok] at received
    obtain ⟨base, -, received⟩ := received
    obtain rfl := Except.ok.inj received
    exact Limiter.Parameters.indices_of_read found
  | compressor slot =>
    cases version with
    | first =>
      obtain rfl := Except.ok.inj received
      simp [copies] at copied
    | second =>
      obtain ⟨parameters, found⟩ := Compressor.Parameters.takes_reader.found
        (show 64 ≤ record.specific.length by rw [wide]; decide)
      have read : Compressor.Parameters.reader.front? record.specific = some parameters :=
        Reader.front?_eq_some.mpr ⟨_, found⟩
      simp only [apply, CompressorSlot.receive, read, Option.getD_some, map_bind,
        bind_eq_ok] at received
      obtain ⟨base, -, received⟩ := received
      obtain rfl := Except.ok.inj received
      exact Compressor.Parameters.indices_of_read found

end Slot

namespace Rack

variable {rack after : Rack} {blob : Bytes} {version : Version} {map : AddressMap} {taken : Nat}
  {offset : Int16} {double : Bool}

/-- Slots that all reach the offset make their commands in turn. -/
theorem generateFrom_of_reaches {slots : List Slot}
    (reaches : ∀ slot ∈ slots, slot.Reaches offset) (states : States) :
    ∃ made, generateFrom offset double slots states = .ok made := by
  -- A slot makes its commands whatever states the slots before it have left.
  induction slots generalizing states with
  | nil => exact ⟨_, rfl⟩
  | cons slot rest ih =>
    obtain ⟨⟨first, left, commands⟩, made⟩ :=
      Slot.generate_of_reaches (reaches slot (by simp)) double states
    have rests := fun other here => reaches other (List.mem_cons_of_mem slot here)
    obtain ⟨others, behind⟩ := ih rests left
    simp only [generateFrom, made, ok_bind, behind, pure_eq_ok]
    exact ⟨_, rfl⟩

/-- Slots one of which does not reach the offset fault. -/
theorem generateFrom_of_not_reaches {slots : List Slot}
    (fails : ∃ slot ∈ slots, ¬slot.Reaches offset) (states : States) :
    generateFrom offset double slots states = .error .overflow := by
  induction slots generalizing states with
  | nil => simp at fails
  | cons slot rest ih =>
    by_cases reaches : slot.Reaches offset
    · -- The first slot makes its commands, so that it is a later one that faults.
      obtain ⟨⟨first, left, commands⟩, made⟩ := Slot.generate_of_reaches reaches double states
      obtain ⟨other, here, short⟩ := fails
      have later : other ∈ rest := (List.mem_cons.mp here).resolve_left fun same =>
        short (same ▸ reaches)
      simp only [generateFrom, made, ok_bind, ih ⟨other, later, short⟩ left, error_bind]
    · simp only [generateFrom, Slot.generate_of_not_reaches reaches, error_bind]

/--
After any update that succeeds, a slot makes its commands just when none of its indices wraps around
behind the offset, and making them overflows otherwise. No index of a filter is checked, and none of any
slot wraps around behind an offset that leaves room for all. The indices that are checked are the first
twelve bytes that the slot's record brings for its kind, for all channels and not only those in use.
-/
theorem update_generates (updated : rack.update blob version map = .ok (after, taken))
    (offset : Int16) (double : Bool) (states : States) :
    ((∃ made, after.generate offset double states = .ok made) ↔
      ∀ slot ∈ after.slots, slot.Reaches offset) ∧
    ∀ (index : Nat) (slot : Slot), after.slots[index]? = some slot →
      ((∃ made, slot.generate offset double states = .ok made) ↔ slot.Reaches offset) ∧
      (¬slot.Reaches offset → slot.generate offset double states = .error .overflow) ∧
      (slot.kind = .biquad → slot.Reaches offset) ∧
      (Int16.minValue.toInt - Int8.minValue.toInt ≤ offset.toInt →
        offset.toInt ≤ Int16.maxValue.toInt - Int8.maxValue.toInt → slot.Reaches offset) ∧
      (slot.copies version → slot.kind ≠ .biquad → ∃ record, Record.at? blob index = some record ∧
        slot.indices =
          (record.specific.take (maxChannels + maxChannels)).map UInt8.toInt8) := by
  constructor
  · constructor
    · rintro ⟨made, ran⟩ slot here
      -- One slot that does not reach the offset would have faulted the whole rack.
      by_contra fails
      rw [generate, generateFrom_of_not_reaches ⟨slot, here, fails⟩ states, error_bind] at ran
      cases ran
    · intro reaches
      obtain ⟨⟨slots, left, commands⟩, made⟩ := generateFrom_of_reaches reaches states
      exact ⟨_, by rw [generate, made, ok_bind]; rfl⟩
  · intro index slot found
    have faults : ¬slot.Reaches offset → slot.generate offset double states = .error .overflow :=
      fun fails => Slot.generate_of_not_reaches fails double states
    refine ⟨⟨?_, fun reaches => Slot.generate_of_reaches reaches double states⟩, faults,
      fun filters => Slot.reaches_of_biquad filters offset, Slot.reaches_of_near, ?_⟩
    · rintro ⟨made, ran⟩
      by_contra fails
      rw [faults fails] at ran
      cases ran
    · intro copied checked
      -- The indices are those of the record in the slot's place, since the slot has copied it.
      obtain ⟨old, record, -, own, received⟩ := exists_of_update updated found
      obtain ⟨rest, read⟩ := Reader.front?_eq_some.mp own
      exact ⟨record, own,
        Slot.indices_of_receive (Record.specific_length read) received copied checked⟩

/-- An update that is seen to leave some slots succeeds with a rack of them. -/
theorem exists_update_of_slots {slots : List Slot}
    (seen : (rack.update blob version map).toOption.map (·.1.slots) = some slots) :
    ∃ after taken, rack.update blob version map = .ok (after, taken) ∧ after.slots = slots := by
  cases updated : rack.update blob version map with
  | error fault => simp [updated, Except.toOption] at seen
  | ok made => exact ⟨made.1, made.2, rfl, by simpa [updated, Except.toOption] using seen⟩

/-- A limiter whose first input is one faults behind the largest offset. -/
theorem update_generates_overflow :
    let parameters : Limiter.Parameters :=
      { Limiter.Parameters.zero with inputs := #v[1, 0, 0, 0, 0, 0], channels := 1 }
    let blob := (Record.create .limiter 0 parameters.encode).encode
    ∃ after taken slot, (create 1 0).update blob .second .identity = .ok (after, taken) ∧
      after.slots[0]? = some slot ∧ slot.generate 32767 false .empty = .error .overflow := by
  intro parameters blob
  let slot : Slot := .limiter ⟨{ Base.new with enabled := true }, parameters, none⟩
  have seen : ((create 1 0).update blob .second .identity).toOption.map (·.1.slots) =
      some [slot] := by decide +kernel
  obtain ⟨after, taken, updated, slots⟩ := exists_update_of_slots seen
  exact ⟨after, taken, slot, updated, by rw [slots]; rfl, by decide +kernel⟩

/-- A limiter whose last output is as far as can be, although its channel is not in use, makes its
command behind an offset that leaves room for that output, and faults behind the next one. -/
theorem update_generates_unused :
    let parameters : Limiter.Parameters :=
      { Limiter.Parameters.zero with outputs := #v[0, 0, 0, 0, 0, 127], channels := 1 }
    let blob := (Record.create .limiter 0 parameters.encode).encode
    ∃ after taken slot, (create 1 0).update blob .second .identity = .ok (after, taken) ∧
      after.slots[0]? = some slot ∧ slot.indices[11]? = some 127 ∧
      (∃ made, slot.generate 32640 false .empty = .ok made) ∧
      slot.generate 32641 false .empty = .error .overflow := by
  intro parameters blob
  let slot : Slot := .limiter ⟨{ Base.new with enabled := true }, parameters, none⟩
  have seen : ((create 1 0).update blob .second .identity).toOption.map (·.1.slots) =
      some [slot] := by decide +kernel
  obtain ⟨after, taken, updated, slots⟩ := exists_update_of_slots seen
  have found : after.slots[0]? = some slot := by
    rw [slots]
    rfl
  obtain ⟨-, near⟩ := update_generates updated 32640 false .empty
  obtain ⟨-, far⟩ := update_generates updated 32641 false .empty
  obtain ⟨makes, -, -, room, -⟩ := near 0 slot found
  obtain ⟨-, faults, -⟩ := far 0 slot found
  -- The last index of all is not in use, but still the one that decides.
  refine ⟨after, taken, slot, updated, found, by decide,
    makes.mpr (room (by decide) (by decide)), faults fun reaches => ?_⟩
  exact reaches 127 (by decide) (by decide)

end Rack

end Effect

end Mixdown
