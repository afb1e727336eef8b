import Mixdown.Proofs.Effect.Record
import Mixdown.Proofs.Effect.Slot
import Mixdown.Proofs.Locality

/-!
The filters of a slot keep to the window of buffers behind its offset when their channels name
buffers of their own, and an index that wraps around names a buffer far behind any other.
-/

namespace Mixdown

/-- The buffers that a command works on, for reading or for writing. -/
def Command.buffers (command : Command) : List Int16 := command.sources ++ command.targets

/-- A position lies in one of some buffers. -/
def Mixer.CoversAny (mixer : Mixer) (buffers : Int16 → Prop) (position : Nat) : Prop :=
  ∃ index, buffers index ∧ mixer.Covers index position

/--
A command keeps to some buffers when it changes no samples elsewhere, and ends alike whatever
samples there are elsewhere.
-/
structure Command.KeepsTo (command : Command) (buffers : Int16 → Prop) (mixer : Mixer) : Prop where
  writes : ∀ after, command.process mixer = .ok after →
    Mixer.Footprint (mixer.CoversAny buffers) command.Keeps mixer after
  reads : ∀ other, Mixer.Footprint (¬mixer.CoversAny buffers ·) (fun _ => False) mixer other →
    Paired (Mixer.Footprint (¬mixer.CoversAny buffers ·) fun _ => False)
      (command.process mixer) (command.process other)

namespace BiquadCommand

variable {command : BiquadCommand} {mixer : Mixer}

/-- A filter that can run finds all of its buffers in the arena. -/
theorem holds_of_verify (verified : command.verify mixer = true) :
    ∀ index ∈ (Command.biquad command).buffers, mixer.Holds index := by
  obtain ⟨-, route, routed⟩ := verify_eq_true.mp verified
  have reached : (Command.biquad command).routes? mixer = some [route] := by
    simp [Command.routes?, routed]
  exact (Command.routes?_leads reached).1

/-- A filter whose state is there can run in a mixer with room for its buffers. -/
theorem verify_of_room {channels : Nat} (room : mixer.Room channels)
    (live : (command.state.bind (mixer.states.biquad[·]?)).isSome)
    (input : Names channels command.input)
    (output : command.output < 0 ∨ Names channels command.output) :
    command.verify mixer = true := by
  rw [verify, live, room.route? input output, Bool.and_self]

/-- A filter reads no samples but those of its input buffer. -/
theorem avoids_of_route? {route : Route} {region : Nat → Prop}
    (routed : command.route? mixer = some route)
    (away : ∀ position, mixer.Covers command.input position → ¬region position) :
    route.Avoids mixer.frame region := by
  simp only [route?] at routed
  split at routed
  · simp at routed
  · obtain ⟨input, source, routed⟩ := Option.bind_eq_some_iff.mp routed
    obtain ⟨output, -, routed⟩ := Option.bind_eq_some_iff.mp routed
    obtain rfl := Option.some.inj routed
    have holds := Mixer.holds_of_segment? source
    obtain ⟨rfl, -⟩ := Mixer.segment?_eq_some source
    -- The instants of a frame lie between the ends of the buffer.
    exact ⟨rfl, fun instant early => away _
      ⟨holds, Nat.le_add_right _ instant, Nat.add_lt_add_left early _⟩⟩

/-- A filter keeps to its own buffers. -/
theorem keepsTo {buffers : Int16 → Prop}
    (inside : ∀ index ∈ (Command.biquad command).buffers, buffers index) :
    (Command.biquad command).KeepsTo buffers mixer where
  writes after ran := by
    refine (Command.footprint ran).mono ?_ fun _ keeps => keeps
    rintro position ⟨index, here, covers⟩
    exact ⟨index, inside index (List.mem_append_right _ here), covers⟩
  reads other footprint := by
    refine Command.process_paired_biquad footprint ?_ fun place _ => footprint.states place not_false
    intro routes reached route here
    obtain ⟨found, routed, rfl⟩ := Option.map_eq_some_iff.mp reached
    obtain rfl := List.mem_singleton.mp here
    -- What differs lies in none of the buffers, and so not in the one that is read.
    have own : buffers command.input :=
      inside command.input (by simp [Command.buffers, Command.sources])
    exact avoids_of_route? routed fun position covers apart => apart ⟨_, own, covers⟩

end BiquadCommand

namespace Effect

/-- The window of an effect holds as many buffers as its indices can name, from an offset on. -/
def InWindow (offset index : Int16) : Prop :=
  offset.toInt ≤ index.toInt ∧ index.toInt < offset.toInt + BiquadParameters.indexEnd

instance {offset index : Int16} : Decidable (InWindow offset index) :=
  inferInstanceAs (Decidable (_ ∧ _))

/-- An index names one of an effect's buffers, which minus one does not. -/
def NamesBuffer (index : Int8) : Prop :=
  0 ≤ index.toInt ∧ index.toInt < BiquadParameters.indexEnd

instance {index : Int8} : Decidable (NamesBuffer index) := inferInstanceAs (Decidable (_ ∧ _))

/-- The sum of an index and an offset does not fit the type of buffer indices. -/
def Wraps (index : Int8) (offset : Int16) : Prop :=
  index.toInt + offset.toInt < Int16.minValue.toInt ∨
    Int16.maxValue.toInt < index.toInt + offset.toInt

instance {index : Int8} {offset : Int16} : Decidable (Wraps index offset) :=
  inferInstanceAs (Decidable (_ ∨ _))

/-- An index counted from an offset is their sum, or a whole turn away when that does not fit. -/
theorem shifted_cases (index : Int8) (offset : Int16) :
    (¬Wraps index offset ∧
      (index.toInt16 + offset).toInt = index.toInt + offset.toInt) ∨
    (Int16.maxValue.toInt < index.toInt + offset.toInt ∧
      (index.toInt16 + offset).toInt = index.toInt + offset.toInt - Int16.size) ∨
    (index.toInt + offset.toInt < Int16.minValue.toInt ∧
      (index.toInt16 + offset).toInt = index.toInt + offset.toInt + Int16.size) := by
  have above := index.minValue_le_toInt
  have below := index.toInt_le
  have least := offset.minValue_le_toInt
  have most := offset.toInt_le
  -- Neither number is so large that their sum could be further away than one turn.
  simp only [Wraps, Int16.toInt_add, Int8.toInt_toInt16, Int.bmod_def, Int8.toInt_minValue,
    Int8.toInt_maxValue, Int16.toInt_minValue, Int16.toInt_maxValue, Int16.size] at *
  omega

/-- An index is not negative behind its offset just when their sum fits and is not negative either, or
has wrapped around from below. -/
theorem shifted_nonneg (index : Int8) (offset : Int16) : 0 ≤ (index.toInt16 + offset).toInt ↔
    index.toInt + offset.toInt < Int16.minValue.toInt ∨
      (0 ≤ index.toInt + offset.toInt ∧ index.toInt + offset.toInt ≤ Int16.maxValue.toInt) := by
  -- The sum of a byte and a word wraps at most once, in one of three ways.
  have above := index.minValue_le_toInt
  have below := index.toInt_le
  have least := offset.minValue_le_toInt
  have most := offset.toInt_le
  rcases shifted_cases index offset with ⟨fits, sum⟩ | ⟨beyond, sum⟩ | ⟨beyond, sum⟩
  all_goals
    simp only [Wraps, Int8.toInt_minValue, Int8.toInt_maxValue, Int16.toInt_minValue,
      Int16.toInt_maxValue, Int16.size] at *
    omega

/-- An index is left without a buffer when its sum with the offset is negative or does not fit. -/
def Lost (index : Int8) (offset : Int16) : Prop :=
  index.toInt + offset.toInt < 0 ∨ Int16.maxValue.toInt < index.toInt + offset.toInt

instance {index : Int8} {offset : Int16} : Decidable (Lost index offset) :=
  inferInstanceAs (Decidable (_ ∨ _))

section Ahead

variable {index : Int8} {offset : Int16} (ahead : 0 ≤ offset.toInt)

include ahead

/-- Behind an offset that is not negative, an index is left without a buffer just when it has become
negative. -/
theorem shifted_neg : index.toInt16 + offset < 0 ↔ Lost index offset := by
  have above := index.minValue_le_toInt
  rw [Int16.lt_iff_toInt_lt, Int16.toInt_zero, ← not_le, shifted_nonneg, Lost]
  -- The sum does not wrap from below, since no index leads that far back from the offset.
  simp only [Int8.toInt_minValue, Int16.toInt_minValue] at above ⊢
  omega

/-- Behind an offset that is not negative, an index that is not lost is counted from it. -/
theorem shifted_of_not_lost (found : ¬Lost index offset) :
    (index.toInt16 + offset).toInt = index.toInt + offset.toInt := by
  -- Of the three ways in which the sum may wrap, one is lost and one cannot happen.
  have above := index.minValue_le_toInt
  rcases shifted_cases index offset with ⟨-, sum⟩ | ⟨beyond, -⟩ | ⟨beyond, -⟩
  · exact sum
  · exact absurd (.inr beyond) found
  · -- No index of one byte leads below the least one from an offset that is not negative.
    simp only [Int8.toInt_minValue, Int16.toInt_minValue] at above beyond
    omega

/-- Behind an offset that is not negative, the window holds the indices that name a buffer. -/
theorem inWindow_shifted (found : ¬Lost index offset) :
    InWindow offset (index.toInt16 + offset) ↔ NamesBuffer index := by
  rw [InWindow, shifted_of_not_lost ahead found, NamesBuffer]
  omega

/-- Behind an offset that is not negative, a valid index leads into the window or right before it. -/
theorem shifted_of_valid (found : ¬Lost index offset) (valid : BiquadParameters.indexIsValid index) :
    InWindow offset (index.toInt16 + offset) ∨
      (index.toInt16 + offset).toInt = offset.toInt - 1 := by
  simp only [BiquadParameters.indexIsValid, decide_eq_true_eq] at valid
  rw [InWindow, shifted_of_not_lost ahead found]
  omega

end Ahead

/-- A channel keeps to the window when its input names a buffer, and its output names one or is
left without. -/
structure BiquadParameters.KeepsWindow (parameters : BiquadParameters) (offset : Int16)
    (channel : Fin maxChannels) : Prop where
  input : NamesBuffer (parameters.inputs.get channel)
  output : NamesBuffer (parameters.outputs.get channel) ∨ Lost (parameters.outputs.get channel) offset

/-- The channels in use of valid parameters have valid indices. -/
theorem BiquadParameters.indices_of_isValid {parameters : BiquadParameters} {version : Version}
    (valid : parameters.isValid version) {channel : Fin maxChannels}
    (used : channel.val < parameters.channels.toInt.toNat) :
    indexIsValid (parameters.inputs.get channel) ∧ indexIsValid (parameters.outputs.get channel) := by
  -- The first version checks all channels, and the second one those in use.
  have checked : ∃ count, channel.val < count ∧ parameters.indicesAreValid count := by
    simp only [isValid, Bool.and_eq_true] at valid
    cases version with
    | first => exact ⟨maxChannels, channel.isLt, valid.2⟩
    | second => exact ⟨_, used, valid.2⟩
  obtain ⟨count, inside, valid⟩ := checked
  simp only [indicesAreValid, Bool.and_eq_true, List.all_eq_true] at valid
  obtain ⟨inputs, outputs⟩ := valid
  exact ⟨inputs _ (List.mem_take_iff_getElem.mpr ⟨channel, by simp; omega, rfl⟩),
    outputs _ (List.mem_take_iff_getElem.mpr ⟨channel, by simp; omega, rfl⟩)⟩

namespace BiquadSlot

variable {slot : BiquadSlot} {offset : Int16} {double : Bool} {channel : Fin maxChannels}
  {place : Nat} {mixer : Mixer}

/-- A filter reads the buffer that its channel's input is counted to. -/
theorem command_input : (slot.command offset double channel place).input =
    (slot.parameters.inputs.get channel).toInt16 + offset := rfl

/-- A filter names the output that its channel's output is counted to. -/
theorem command_output : (slot.command offset double channel place).output =
    (slot.parameters.outputs.get channel).toInt16 + offset := rfl

/-- A filter that can run finds the buffer that its input is counted to. -/
theorem holds_input (verified : (slot.command offset double channel place).verify mixer = true) :
    mixer.Holds ((slot.parameters.inputs.get channel).toInt16 + offset) := by
  refine BiquadCommand.holds_of_verify verified _ ?_
  simp [Command.buffers, Command.sources, command_input]

/-- A filter that can run has not lost its input. -/
theorem input_found (ahead : 0 ≤ offset.toInt)
    (verified : (slot.command offset double channel place).verify mixer = true) :
    ¬Lost (slot.parameters.inputs.get channel) offset := by
  rw [← shifted_neg ahead]
  exact Int16.not_lt.mpr (holds_input verified).1

/-- A filter that can run works on its two buffers, or on the input alone when the output is lost. -/
theorem forall_buffers (ahead : 0 ≤ offset.toInt) {holds : Int16 → Prop} :
    (∀ index ∈ (Command.biquad (slot.command offset double channel place)).buffers,
      holds index) ↔
      holds ((slot.parameters.inputs.get channel).toInt16 + offset) ∧
        (Lost (slot.parameters.outputs.get channel) offset ∨
          holds ((slot.parameters.outputs.get channel).toInt16 + offset)) := by
  simp only [Command.buffers, Command.sources, Command.targets, List.singleton_append,
    List.forall_mem_cons, List.not_mem_nil, IsEmpty.forall_iff, implies_true, and_true,
    command_input, command_output]
  refine and_congr_right fun input => ?_
  -- An output that is lost has become negative, and then stands for the input.
  by_cases lost : Lost (slot.parameters.outputs.get channel) offset
  · have negative := (shifted_neg ahead).mpr lost
    simp only [negative, if_true, lost, true_or, iff_true]
    exact input
  · have positive := mt (shifted_neg ahead).mp lost
    simp only [positive, if_false, lost, false_or]

/-- A filter that can run stays in the window just when its channel keeps to it. -/
theorem keepsWindow_iff (ahead : 0 ≤ offset.toInt)
    (verified : (slot.command offset double channel place).verify mixer = true) :
    slot.parameters.KeepsWindow offset channel ↔
      ∀ index ∈ (Command.biquad (slot.command offset double channel place)).buffers,
        InWindow offset index := by
  rw [forall_buffers ahead, inWindow_shifted ahead (input_found ahead verified)]
  -- What is said of the input is the same on both sides, and an output that is lost says nothing.
  constructor
  · rintro ⟨input, output⟩
    refine ⟨input, ?_⟩
    by_cases lost : Lost (slot.parameters.outputs.get channel) offset
    · exact .inl lost
    · exact .inr ((inWindow_shifted ahead lost).mpr (output.resolve_right lost))
  · rintro ⟨input, output⟩
    refine ⟨input, ?_⟩
    by_cases lost : Lost (slot.parameters.outputs.get channel) offset
    · exact .inr lost
    · exact .inl ((inWindow_shifted ahead lost).mp (output.resolve_left lost))

/-- A filter of valid parameters that can run stays in the window or takes the buffer before it. -/
theorem window_of_valid (ahead : 0 ≤ offset.toInt)
    (verified : (slot.command offset double channel place).verify mixer = true)
    {version : Version} (valid : slot.parameters.isValid version)
    (used : channel.val < slot.parameters.channels.toInt.toNat) :
    ∀ index ∈ (Command.biquad (slot.command offset double channel place)).buffers,
      InWindow offset index ∨ index.toInt = offset.toInt - 1 := by
  -- An input that is verified was found, and a lost output gives way to the input.
  obtain ⟨input, output⟩ := BiquadParameters.indices_of_isValid valid used
  refine (forall_buffers ahead).mpr ⟨shifted_of_valid ahead (input_found ahead verified) input, ?_⟩
  by_cases lost : Lost (slot.parameters.outputs.get channel) offset
  · exact .inl lost
  · exact .inr (shifted_of_valid ahead lost output)

end BiquadSlot

namespace Slot

variable {slot later : Slot} {record : Record} {version : Version} {map : AddressMap}
  {filters : BiquadSlot} {offset : Int16} {double : Bool} {states left : States}
  {commands : List Command}

/-- Filters that a record was received in have the parameters of the record. -/
theorem parameters_of_receive
    (received : slot.receive record version map = .ok (.biquad filters))
    {parameters : BiquadParameters}
    (read : BiquadParameters.reader.front? record.specific = some parameters) :
    filters.parameters = parameters := by
  simp only [receive] at received
  -- A record leaves the kind of the slot that it is applied to, so that one holds filters.
  cases target : slot.target record with
  | empty => simp [target, apply] at received
  | biquad slot =>
    obtain rfl : slot.receive record version = filters := by simpa [target, apply] using received
    simp [BiquadSlot.receive, read]
  | limiter slot =>
    obtain ⟨-, kind⟩ := apply_places received
    simp [target, Slot.kind] at kind
  | compressor slot =>
    obtain ⟨-, kind⟩ := apply_places received
    simp [target, Slot.kind] at kind

/-- The command at a channel's place is the filter of that channel, which is in use. -/
theorem command_of_generate
    (generated : (Slot.biquad filters).generate offset double states = .ok (later, left, commands))
    {channel : Fin maxChannels} {command : Command}
    (issued : commands[channel.val]? = some command) :
    channel.val < filters.parameters.channels.toInt.toNat ∧
      ∃ place, command = .biquad (filters.command offset double channel place) := by
  -- The commands stand in the order of the channels in use.
  obtain ⟨held, -, -, rfl⟩ := generate_biquad generated
  rw [List.getElem?_map] at issued
  obtain ⟨other, found, rfl⟩ := Option.map_eq_some_iff.mp issued
  simp only [BiquadSlot.channels, List.getElem?_take] at found
  split at found
  · next used =>
    have own : (List.finRange maxChannels)[channel.val]? = some channel := by simp
    obtain rfl : channel = other := by simpa using own.symm.trans found
    exact ⟨used, _, rfl⟩
  · simp at found

/--
A filter that can run after a record was received works inside the window of buffers behind the
offset just when its channel in the record keeps to the window, and then neither what it writes nor
what it depends on lies elsewhere. A filter of a valid record takes one buffer more at most, which is
the one before the window.
-/
theorem receive_window (wide : record.specific.length = specificSize)
    (received : slot.receive record version map = .ok (.biquad filters))
    (generated : (Slot.biquad filters).generate offset double states = .ok (later, left, commands))
    (ahead : 0 ≤ offset.toInt) :
    ∃ parameters, BiquadParameters.reader.front? record.specific = some parameters ∧
      commands.length ≤ maxChannels ∧
      ∀ (channel : Fin maxChannels) (command : Command) (mixer : Mixer),
        commands[channel.val]? = some command → command.verify mixer = true →
          (parameters.KeepsWindow offset channel ↔
            ∀ index ∈ command.buffers, InWindow offset index) ∧
          (parameters.KeepsWindow offset channel → command.KeepsTo (InWindow offset) mixer) ∧
          (parameters.isValid version → ∀ index ∈ command.buffers,
            InWindow offset index ∨ index.toInt = offset.toInt - 1) := by
  -- The bytes of a kind have room for the parameters, so that these are always read.
  have long : 24 ≤ record.specific.length := by
    rw [wide]
    decide
  obtain ⟨parameters, found⟩ := BiquadParameters.takes_reader.found long
  have read : BiquadParameters.reader.front? record.specific = some parameters :=
    Reader.front?_eq_some.mpr ⟨_, found⟩
  obtain rfl := parameters_of_receive received read
  refine ⟨_, read, ?_, fun channel command mixer issued verified => ?_⟩
  · obtain ⟨held, -, -, rfl⟩ := generate_biquad generated
    rw [List.length_map, BiquadSlot.channels, List.length_take, List.length_finRange]
    exact Nat.min_le_right _ _
  · -- The command of a channel carries the indices of its own channel only.
    obtain ⟨used, place, rfl⟩ := command_of_generate generated issued
    have stays := BiquadSlot.keepsWindow_iff ahead verified
    refine ⟨stays, fun keeps => BiquadCommand.keepsTo (stays.mp keeps), fun valid => ?_⟩
    exact BiquadSlot.window_of_valid ahead verified valid used

/-- A valid record without an input makes a filter read the buffer before the window, and one that is
rejected for its indices makes the filter that it disables work beyond the window. -/
theorem receive_window_leaves :
    let without : BiquadParameters := { BiquadParameters.zero with
      inputs := #v[-1, -1, -1, -1, -1, -1], coefficients := .passThrough, channels := 1 }
    let beyond : BiquadParameters := { BiquadParameters.zero with
      inputs := #v[12, -1, -1, -1, -1, -1], outputs := #v[13, -1, -1, -1, -1, -1]
      coefficients := .passThrough, channels := 1 }
    let mixer : Mixer :=
      ⟨⟨14, 1, .replicate 14 0⟩, 1, defaultRate, { States.empty with biquad := #[.initial] }⟩
    (∃ filters later command,
      empty.receive (.create .biquad 0 without.encode) .second .identity = .ok (.biquad filters) ∧
      filters.base.enabled = true ∧
      (Slot.biquad filters).generate 1 false .empty = .ok (later, mixer.states, [command]) ∧
      command.verify mixer = true ∧ 0 ∈ command.buffers ∧ ¬InWindow 1 0) ∧
    (∃ filters later command,
      empty.receive (.create .biquad 0 beyond.encode) .second .identity = .ok (.biquad filters) ∧
      filters.base.enabled = false ∧
      (Slot.biquad filters).generate 0 false .empty = .ok (later, mixer.states, [command]) ∧
      command.verify mixer = true ∧ 12 ∈ command.buffers ∧ ¬InWindow 0 12) := by
  intro without beyond mixer
  let filters (parameters : BiquadParameters) (enabled : Bool) : BiquadSlot :=
    ⟨{ Base.new with enabled }, parameters, .replicate _ none⟩
  let later (parameters : BiquadParameters) (enabled : Bool) : BiquadSlot :=
    { filters parameters enabled with states := #v[some 0, none, none, none, none, none] }
  let command (input output : Int16) (reset : Bool) : Command :=
    .biquad ⟨input, output, .passThrough, .zero, some 0, reset, false, false⟩
  -- A negative input leads below the window, and one that was refused leads behind it.
  refine ⟨⟨filters without true, .biquad (later without true), command 0 1 true, ?_⟩,
    filters beyond false, .biquad (later beyond false), command 12 13 false, ?_⟩
  · decide +kernel
  · decide +kernel

/-- A filter of a record that keeps to the window reads and writes inside it. -/
theorem receive_window_inside :
    let parameters : BiquadParameters := { BiquadParameters.zero with
      inputs := #v[3, -1, -1, -1, -1, -1], outputs := #v[5, -1, -1, -1, -1, -1]
      coefficients := .passThrough, channels := 1 }
    let record : Record := .create .biquad 0 parameters.encode
    let filters : BiquadSlot := ⟨{ Base.new with enabled := true }, parameters, .replicate _ none⟩
    let mixer : Mixer :=
      ⟨⟨14, 1, .replicate 14 0⟩, 1, defaultRate, { States.empty with biquad := #[.initial] }⟩
    (record.specific.length = specificSize ∧
        empty.receive record .second .identity = .ok (.biquad filters) ∧
        0 ≤ (2 : Int16).toInt ∧ parameters.KeepsWindow 2 ⟨0, by decide⟩) ∧
      ∃ later command,
        (Slot.biquad filters).generate 2 false .empty = .ok (later, mixer.states, [command]) ∧
        command.verify mixer = true ∧ command.buffers = [5, 7] ∧
        command.KeepsTo (InWindow 2) mixer := by
  intro parameters record filters mixer
  let later : BiquadSlot := { filters with states := #v[some 0, none, none, none, none, none] }
  let command : Command :=
    .biquad ⟨5, 7, .passThrough, .zero, some 0, true, false, false⟩
  have wide : record.specific.length = specificSize := by decide +kernel
  have received : empty.receive record .second .identity = .ok (.biquad filters) := by
    decide +kernel
  have generated : (Slot.biquad filters).generate 2 false .empty =
      .ok (.biquad later, mixer.states, [command]) := by decide +kernel
  have verified : command.verify mixer = true := by decide +kernel
  have keeps : parameters.KeepsWindow 2 ⟨0, by decide⟩ :=
    ⟨by decide, .inl (by decide)⟩
  -- What the theorem says of the parameters that were read is said of the record's own.
  obtain ⟨found, read, -, window⟩ := receive_window wide received generated (by decide)
  obtain rfl : parameters = found := parameters_of_receive received read
  obtain ⟨-, stays, -⟩ := window ⟨0, by decide⟩ command mixer rfl verified
  exact ⟨⟨wide, received, by decide, keeps⟩, .biquad later, command, generated, verified, rfl,
    stays keeps⟩

end Slot

/-- The least buffer that a filter can read when one of its indices has wrapped around. -/
def leastWrapped : Int16 := Int16.maxValue - 2 * Int8.maxValue.toInt16

section Wrapping

variable {input output : Int8} {offset : Int16}

/-- An input that is not negative, although it or the output has wrapped, names a far buffer. -/
theorem leastWrapped_le (wraps : Wraps input offset ∨ Wraps output offset)
    (positive : 0 ≤ (input.toInt16 + offset).toInt) :
    leastWrapped.toInt ≤ (input.toInt16 + offset).toInt := by
  have least : leastWrapped.toInt = 32513 := by decide
  have above := input.minValue_le_toInt
  have below := input.toInt_le
  have aboveToo := output.minValue_le_toInt
  have belowToo := output.toInt_le
  have start := offset.minValue_le_toInt
  have stop := offset.toInt_le
  -- When it is the output that has wrapped, the offset is so far that the input is not near.
  rcases shifted_cases input offset with ⟨fits, sum⟩ | ⟨beyond, sum⟩ | ⟨beyond, sum⟩
  all_goals
    simp only [Wraps, Int8.toInt_minValue, Int8.toInt_maxValue, Int16.toInt_minValue,
      Int16.toInt_maxValue, Int16.size] at *
    omega

end Wrapping

/-- A mixer with a buffer for every index, and with states up to a place. -/
def vast (place : Nat) : Mixer where
  arena := ⟨Int16.size / 2, 1, .replicate (Int16.size / 2) 0⟩
  frame := 1
  rate := defaultRate
  states := { States.empty with biquad := .replicate (place + 1) .initial }

/-- The vast mixer has room for all indices. -/
theorem room_vast (place : Nat) : (vast place).Room (Int16.size / 2) where
  frame_pos := Nat.one_pos
  frames := rfl
  buffers := rfl
  size := Array.size_replicate.trans (Nat.mul_one _).symm
  fits := show Int16.size / 2 * 1 < addressSpace by decide

/-- An index that is not negative names a buffer of the vast mixer. -/
theorem names_of_nonneg {index : Int16} (positive : 0 ≤ index.toInt) :
    Names (Int16.size / 2) index := by
  have most := index.toInt_le
  rw [Int16.toInt_maxValue] at most
  refine ⟨positive, ?_⟩
  rw [Int16.size]
  omega

namespace BiquadSlot

variable {slot : BiquadSlot} {offset : Int16} {double : Bool} {channel : Fin maxChannels}
  {place : Nat}

/-- A filter can run in the vast mixer when its input is not negative. -/
theorem verify_vast (positive : 0 ≤ ((slot.parameters.inputs.get channel).toInt16 + offset).toInt) :
    (slot.command offset double channel place).verify (vast place) = true := by
  refine BiquadCommand.verify_of_room (room_vast place) ?_ (names_of_nonneg positive) ?_
  · simp [command, vast]
  · -- An output that is negative stands for the input.
    rcases lt_or_ge (slot.command offset double channel place).output.toInt 0 with below | above
    · exact .inl (by rwa [Int16.lt_iff_toInt_lt, Int16.toInt_zero])
    · exact .inr (names_of_nonneg above)

/-- A filter one of whose indices has wrapped needs a far buffer to run. -/
theorem holds_leastWrapped {mixer : Mixer}
    (wraps : Wraps (slot.parameters.inputs.get channel) offset ∨
      Wraps (slot.parameters.outputs.get channel) offset)
    (verified : (slot.command offset double channel place).verify mixer = true) :
    mixer.Holds leastWrapped := by
  obtain ⟨positive, inside⟩ := holds_input verified
  rw [Int16.le_iff_toInt_le, Int16.toInt_zero] at positive
  have far := leastWrapped_le wraps positive
  -- An arena that holds a buffer holds all those before it.
  refine ⟨by decide, le_trans (Nat.add_le_add_right (Nat.mul_le_mul_right mixer.frame ?_) _) inside⟩
  omega

end BiquadSlot

namespace Slot

variable {later : Slot} {filters : BiquadSlot} {offset : Int16} {double : Bool}
  {states left : States} {commands : List Command}

/--
A filter one of whose indices has wrapped around can run only in a mixer that holds the buffers up to
a far one. There is such a mixer unless the input has wrapped from above or is negative itself.
-/
theorem generate_wrapped (channel : Fin maxChannels) {command : Command}
    (generated : (Slot.biquad filters).generate offset double states = .ok (later, left, commands))
    (issued : commands[channel.val]? = some command)
    (wraps : Wraps (filters.parameters.inputs.get channel) offset ∨
      Wraps (filters.parameters.outputs.get channel) offset) :
    (∀ mixer, mixer.frame = 0 ∨ ¬mixer.Holds leastWrapped → command.verify mixer = false) ∧
    ((∀ mixer, command.verify mixer = false) ↔
      Int16.maxValue.toInt < (filters.parameters.inputs.get channel).toInt + offset.toInt ∨
        (Int16.minValue.toInt ≤ (filters.parameters.inputs.get channel).toInt + offset.toInt ∧
          (filters.parameters.inputs.get channel).toInt + offset.toInt < 0)) := by
  obtain ⟨used, place, rfl⟩ := command_of_generate generated issued
  constructor
  · intro mixer lacks
    refine Bool.eq_false_iff.mpr fun verified => ?_
    rcases lacks with empty | absent
    · -- Without a frame no filter has a route.
      obtain ⟨-, route, routed⟩ := BiquadCommand.verify_eq_true.mp verified
      simp [BiquadCommand.route?, empty] at routed
    · exact absent (BiquadSlot.holds_leastWrapped wraps verified)
  · have nonneg := shifted_nonneg (filters.parameters.inputs.get channel) offset
    rw [Int16.toInt_minValue, Int16.toInt_maxValue] at *
    constructor
    · intro never
      -- The vast mixer runs every filter whose input is not negative.
      have negative := mt BiquadSlot.verify_vast (Bool.eq_false_iff.mp (never (vast place)))
      omega
    · intro negative mixer
      refine Bool.eq_false_iff.mpr fun verified => ?_
      -- A filter that runs has an input that is not negative.
      obtain ⟨positive, -⟩ := BiquadSlot.holds_input verified
      rw [Int16.le_iff_toInt_le, Int16.toInt_zero] at positive
      omega

/-- An output that has wrapped stands for the input, and a filter of it runs in the vast mixer. -/
theorem generate_wrapped_runs :
    let parameters : BiquadParameters := { BiquadParameters.zero with
      outputs := #v[1, -1, -1, -1, -1, -1], coefficients := .passThrough, channels := 1 }
    let filters : BiquadSlot := { BiquadSlot.new with parameters }
    ∃ later command,
      (Slot.biquad filters).generate 32767 false .empty =
        .ok (later, (vast 0).states, [command]) ∧
      Wraps parameters.outputs[0] 32767 ∧ command.buffers = [32767, 32767] ∧
      command.verify (vast 0) = true := by
  intro parameters filters
  let later : BiquadSlot := { filters with states := #v[some 0, none, none, none, none, none] }
  have runs : (filters.command 32767 false ⟨0, by decide⟩ 0).verify (vast 0) = true :=
    BiquadSlot.verify_vast (by decide)
  exact ⟨.biquad later, .biquad (filters.command 32767 false ⟨0, by decide⟩ 0), rfl, by decide,
    by decide, runs⟩

/-- In a mixer of four buffers no filter runs whose indices have wrapped, and one whose input has
wrapped from above runs nowhere. -/
theorem generate_wrapped_skipped :
    let parameters : BiquadParameters := { BiquadParameters.zero with
      inputs := #v[0, 1, -1, -1, -1, -1], outputs := #v[2, 3, -1, -1, -1, -1]
      coefficients := .passThrough, channels := 2 }
    let filters : BiquadSlot := { BiquadSlot.new with parameters }
    let mixer : Mixer := ⟨⟨4, 4, .replicate 16 0⟩, 4, defaultRate, (vast 1).states⟩
    (Wraps parameters.outputs[0] 32767 ∧ Wraps parameters.inputs[1] 32767) ∧
      ∃ later first second,
        (Slot.biquad filters).generate 32767 false .empty =
          .ok (later, mixer.states, [first, second]) ∧
        first.verify mixer = false ∧ ∀ other, second.verify other = false := by
  intro parameters filters mixer
  let later : BiquadSlot := { filters with states := #v[some 0, some 1, none, none, none, none] }
  let first := Command.biquad (filters.command 32767 false ⟨0, by decide⟩ 0)
  let second := Command.biquad (filters.command 32767 false ⟨1, by decide⟩ 1)
  have generated : (Slot.biquad filters).generate 32767 false .empty =
      .ok (.biquad later, mixer.states, [first, second]) := rfl
  have output : Wraps parameters.outputs[0] 32767 := by decide
  have input : Wraps parameters.inputs[1] 32767 := by decide
  have absent : ¬mixer.Holds leastWrapped := by
    simp only [Mixer.Holds]
    decide
  have issued : [first, second][0]? = some first := rfl
  have issuedToo : [first, second][1]? = some second := rfl
  -- The first output wraps while its input lies beyond the buffers, and the second input wraps.
  obtain ⟨near, -⟩ := generate_wrapped ⟨0, by decide⟩ generated issued (.inr output)
  obtain ⟨-, never⟩ := generate_wrapped ⟨1, by decide⟩ generated issuedToo (.inl input)
  exact ⟨⟨output, input⟩, .biquad later, first, second, generated, near mixer (.inr absent),
    never.mpr (.inl (by decide))⟩

end Slot

end Effect

end Mixdown
