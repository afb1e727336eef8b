import Mixdown.Effect.Slot
import Mixdown.Proofs.Effect.Record

/-!
A record enables a filter slot just when it asks for it and its parameters pass the checks of its
version. The checks never look beyond the channels, and the first version's imply the second one's.
-/

namespace Mixdown.Effect

namespace BiquadParameters

/-- The count of channels as a size, which is vast when the count is negative. -/
def span (parameters : BiquadParameters) : Nat := (parameters.channels.toInt % addressSpace).toNat

/-- Looks at the input and the output of each channel in turn, until an index is not valid. -/
def checkIndices (parameters : BiquadParameters) : List Nat → Except Fault Bool
  | [] => .ok true
  | channel :: channels => do
    let input ← fetch parameters.inputs.toArray channel
    if indexIsValid input then
      let output ← fetch parameters.outputs.toArray channel
      if indexIsValid output then checkIndices parameters channels else .ok false
    else .ok false

/-- The checks of a version in their order, each of which is made only when those before it passed. -/
def check (parameters : BiquadParameters) : Version → Except Fault Bool
  | .first =>
    if parameters.channelsAreValid && parameters.phaseIsValid then
      parameters.checkIndices (List.range maxChannels)
    else .ok false
  | .second =>
    -- A count that was not checked before would lead beyond the channels.
    if parameters.channelsAreValid then do
      let indices ← parameters.checkIndices (List.range parameters.span)
      .ok (indices && parameters.phaseIsValid)
    else .ok false

/-- What a version asks of the parameters in a record: the first one at every channel, the second one
at those in use. -/
structure Accepted (parameters : BiquadParameters) (version : Version) : Prop where
  channels : 0 ≤ parameters.channels.toInt ∧ parameters.channels.toInt ≤ 6
  phase : parameters.phase.toNat ≤ 2
  indices : ∀ channel : Fin maxChannels,
    (version = .second → channel.val < parameters.channels.toInt) →
      (-1 ≤ (parameters.inputs.get channel).toInt ∧ (parameters.inputs.get channel).toInt < 12) ∧
      (-1 ≤ (parameters.outputs.get channel).toInt ∧ (parameters.outputs.get channel).toInt < 12)

/-- Parameters that the first version accepts are accepted by the second one, which asks for less. -/
theorem Accepted.second {parameters : BiquadParameters} (accepted : parameters.Accepted .first) :
    parameters.Accepted .second where
  channels := accepted.channels
  phase := accepted.phase
  indices channel _ := accepted.indices channel nofun

/-- Both indices of a channel are valid. -/
def validAt (parameters : BiquadParameters) (channel : Fin maxChannels) : Bool :=
  indexIsValid (parameters.inputs.get channel) && indexIsValid (parameters.outputs.get channel)

variable {parameters : BiquadParameters}

/-- Looking at channels that there are finds out whether all of them are valid. -/
theorem checkIndices_eq (channels : List (Fin maxChannels)) :
    parameters.checkIndices (channels.map Fin.val) = .ok (channels.all parameters.validAt) := by
  induction channels with
  | nil => rfl
  | cons channel channels ih =>
    have input : fetch parameters.inputs.toArray channel.val = .ok (parameters.inputs.get channel) :=
      fetch_eq_ok (by simp [Vector.get])
    have output : fetch parameters.outputs.toArray channel.val =
        .ok (parameters.outputs.get channel) := fetch_eq_ok (by simp [Vector.get])
    rw [List.map_cons, checkIndices, input, ok_bind, List.all_cons, validAt]
    -- The first index that is not valid decides, whatever comes behind it.
    by_cases valid : indexIsValid (parameters.inputs.get channel)
    · rw [if_pos valid, output, ok_bind, ih, valid, Bool.true_and]
      by_cases validToo : indexIsValid (parameters.outputs.get channel)
      · rw [if_pos validToo, validToo, Bool.true_and]
      · rw [if_neg validToo, eq_false_of_ne_true validToo, Bool.false_and]
    · rw [if_neg valid, eq_false_of_ne_true valid, Bool.false_and, Bool.false_and]

/-- Looking one channel too far faults. -/
example : zero.checkIndices (List.range (maxChannels + 1)) = .error .outOfBounds := rfl

/-- The first numbers are those of the first channels, as long as there are so many. -/
theorem range_eq {count : Nat} (few : count ≤ maxChannels) :
    List.range count = ((List.finRange maxChannels).take count).map Fin.val := by
  have all : (List.finRange maxChannels).map Fin.val = List.range maxChannels := by decide
  rw [List.map_take, all, List.take_range, Nat.min_eq_left few]

/-- Indices are those of all channels in order. -/
theorem toList_eq (indices : Vector Int8 maxChannels) :
    indices.toList = (List.finRange maxChannels).map indices.get := by
  refine List.ext_getElem (by simp) fun place here there => ?_
  simp [Vector.get]

/-- The indices of the first channels are valid when both are at each of these channels. -/
theorem indicesAreValid_eq (count : Nat) : parameters.indicesAreValid count =
    ((List.finRange maxChannels).take count).all parameters.validAt := by
  rw [indicesAreValid, toList_eq, toList_eq, ← List.map_take, ← List.map_take, List.all_map,
    List.all_map, Bool.eq_iff_iff]
  simp only [Bool.and_eq_true, List.all_eq_true, Function.comp_apply, validAt]
  exact forall₂_and.symm

/-- The size of a count that is not negative is the count. -/
theorem span_eq (positive : 0 ≤ parameters.channels.toInt) :
    parameters.span = parameters.channels.toInt.toNat := by
  have room : parameters.channels.toInt < addressSpace :=
    Int.lt_of_le_of_lt parameters.channels.toInt_le (by decide)
  rw [span, Int.emod_eq_of_lt positive room]

/-- The checks look at channels that there are and find out whether the parameters are valid. -/
theorem check_eq (version : Version) :
    parameters.check version = .ok (parameters.isValid version) := by
  cases version with
  | first =>
    rw [check, range_eq (Nat.le_refl _), checkIndices_eq, ← indicesAreValid_eq, isValid]
    by_cases valid : parameters.channelsAreValid && parameters.phaseIsValid
    · rw [if_pos valid, valid, Bool.true_and]
    · rw [if_neg valid, eq_false_of_ne_true valid, Bool.false_and]
  | second =>
    rw [check, isValid]
    by_cases valid : parameters.channelsAreValid
    · -- Once the count is known to be small, it is one of the channels' own numbers.
      obtain ⟨positive, few⟩ : 0 ≤ parameters.channels.toInt ∧
          parameters.channels.toInt ≤ maxChannels := decide_eq_true_iff.mp valid
      rw [if_pos valid, span_eq positive, range_eq (by omega), checkIndices_eq,
        ← indicesAreValid_eq, ok_bind, valid, Bool.true_and, Bool.and_comm]
    · rw [if_neg valid, eq_false_of_ne_true valid, Bool.false_and, Bool.false_and]

/-- Parameters are valid under a version when it accepts them. -/
theorem isValid_iff {version : Version} :
    parameters.isValid version ↔ parameters.Accepted version := by
  have channels : parameters.channelsAreValid ↔
      0 ≤ parameters.channels.toInt ∧ parameters.channels.toInt ≤ 6 := decide_eq_true_iff
  have phase : parameters.phaseIsValid ↔ parameters.phase.toNat ≤ 2 := decide_eq_true_iff
  have index (value : Int8) : indexIsValid value ↔ -1 ≤ value.toInt ∧ value.toInt < 12 :=
    decide_eq_true_iff
  have first (count : Nat) (channel : Fin maxChannels) :
      channel ∈ (List.finRange maxChannels).take count ↔ channel.val < count := by
    simp only [List.mem_take_iff_getElem, List.getElem_finRange, List.length_finRange, Fin.ext_iff]
    exact ⟨by rintro ⟨place, inside, rfl⟩; omega, fun inside => ⟨channel, by omega, rfl⟩⟩
  simp only [isValid, Bool.and_eq_true, channels, phase, indicesAreValid_eq, List.all_eq_true, first,
    validAt, index]
  -- The first version looks at all channels, the second one at as many as there are in use.
  constructor
  · rintro ⟨⟨count, known⟩, each⟩
    refine ⟨count, known, fun channel used => each channel ?_⟩
    cases version with
    | first => exact channel.isLt
    | second => exact Int.lt_toNat.mpr (used rfl)
  · rintro ⟨count, known, each⟩
    refine ⟨⟨count, known⟩, fun channel used => each channel ?_⟩
    rintro rfl
    exact Int.lt_toNat.mp used

instance {version : Version} : Decidable (parameters.Accepted version) :=
  decidable_of_iff _ isValid_iff

end BiquadParameters

namespace BiquadSlot

/--
After any record of the full size a filter slot has the parameters, the mix and the order that stand in
the record's bytes, and is enabled just when the record asks for it and its version accepts the
parameters. The checks never fault. What the first version accepts makes the same slot under the second.
-/
theorem receive_accepted {bytes : Bytes} (whole : bytes.length = recordSize) :
    ∃ record parameters,
      (Record.reader.front? bytes = some record ∧ record.encode = bytes) ∧
      (BiquadParameters.reader.front? record.specific = some parameters ∧
        parameters.encode = record.specific.take 0x18) ∧
      ∀ (slot : BiquadSlot) (version : Version),
        parameters.check version = .ok (decide (parameters.Accepted version)) ∧
        slot.receive record version =
          { slot with
            parameters
            base := { slot.base with
              mixId := record.mixId
              order := record.order
              enabled := decide (record.enabled ≠ 0 ∧ parameters.Accepted version) } } ∧
        (parameters.Accepted .first → parameters.Accepted .second ∧
          slot.receive record .second = slot.receive record .first) := by
  -- A record of the full size is read and written back without a byte left over.
  obtain ⟨record, found⟩ := Record.takes_reader.found (Nat.le_of_eq whole.symm)
  have written : bytes = record.encode := by
    have restored := Record.restores_reader found
    rwa [List.drop_of_length_le (Nat.le_of_eq whole), List.append_nil] at restored
  have long : 0x18 ≤ record.specific.length := by
    rw [Record.specific_length found]
    decide
  obtain ⟨parameters, read⟩ := BiquadParameters.takes_reader.found long
  have block : parameters.encode = record.specific.take 0x18 := by
    -- The bytes behind the block are left, so that those before them are the block's own.
    have restored := BiquadParameters.restores_reader read
    exact List.append_cancel_right (restored.symm.trans (List.take_append_drop 0x18 _).symm)
  -- The slot computes a flag for what the version accepts as a statement.
  have valid (version : Version) :
      parameters.isValid version = decide (parameters.Accepted version) := by
    rw [Bool.eq_iff_iff, BiquadParameters.isValid_iff, decide_eq_true_iff]
  have received (slot : BiquadSlot) (version : Version) : slot.receive record version =
      { slot with
        parameters
        base := { slot.base with
          mixId := record.mixId
          order := record.order
          enabled := decide (record.enabled ≠ 0 ∧ parameters.Accepted version) } } := by
    rw [receive, Reader.front?_eq_some.mpr ⟨_, read⟩, Bool.decide_and, ← valid]
    rfl
  refine ⟨record, parameters, ⟨Reader.front?_eq_some.mpr ⟨_, found⟩, written.symm⟩,
    ⟨Reader.front?_eq_some.mpr ⟨_, read⟩, block⟩, fun slot version =>
      ⟨by rw [BiquadParameters.check_eq, valid], received slot version, fun accepted => ?_⟩⟩
  -- Both versions enable the slot alike when both accept.
  refine ⟨accepted.second, ?_⟩
  simp only [received, accepted, accepted.second]

/-- An index out of range at a channel that is not in use matters to the first version only. -/
theorem receive_accepted_unused :
    let parameters : BiquadParameters :=
      { BiquadParameters.zero with inputs := #v[-1, 11, 0, 0, 12, 0], channels := 2, phase := 2 }
    let record : Record := { Record.create .biquad 1 parameters.encode with mixId := 5 }
    (record.encode.length = recordSize ∧ ¬parameters.Accepted .first ∧
        parameters.Accepted .second) ∧
      (parameters.check .first = .ok false ∧
        new.receive record .first = ⟨⟨5, 1, false, .new, 0⟩, parameters, .replicate _ none⟩) ∧
      (parameters.check .second = .ok true ∧
        new.receive record .second = ⟨⟨5, 1, true, .new, 0⟩, parameters, .replicate _ none⟩) := by
  intro parameters record
  have whole : record.encode.length = recordSize := by decide +kernel
  have own : Record.reader.front? record.encode = some record := by decide +kernel
  have block : BiquadParameters.reader.front? record.specific = some parameters := by
    decide +kernel
  -- The index out of range is that of a channel behind the two in use.
  have first : ¬parameters.Accepted .first := by decide +kernel
  have second : parameters.Accepted .second := by decide +kernel
  have asked : record.enabled ≠ 0 := by decide
  obtain ⟨_, _, ⟨found, -⟩, ⟨read, -⟩, each⟩ := receive_accepted whole
  obtain rfl := Option.some.inj (own.symm.trans found)
  obtain rfl := Option.some.inj (block.symm.trans read)
  obtain ⟨checkedFirst, receivedFirst, -⟩ := each new .first
  obtain ⟨checkedSecond, receivedSecond, -⟩ := each new .second
  simp only [first, and_false, decide_false] at checkedFirst receivedFirst
  simp only [second, asked, ne_eq, not_false_eq_true, and_self, decide_true]
    at checkedSecond receivedSecond
  exact ⟨⟨whole, first, second⟩, ⟨checkedFirst, receivedFirst⟩, checkedSecond, receivedSecond⟩

end BiquadSlot

end Mixdown.Effect
