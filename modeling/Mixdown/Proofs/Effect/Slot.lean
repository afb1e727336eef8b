import Mixdown.Effect.Slot
import Mixdown.Proofs.Allotment
import Mixdown.Proofs.Steady

/-! Slots issue the commands of a frame, and issue the same ones after it. -/

namespace Mixdown.Effect

/-- The indices at which a slot's states are kept, filter by filter, as far as they have run. -/
def Slot.handles : Slot → List (Option Nat)
  | .empty => []
  | .biquad slot => slot.states.toList
  | .limiter slot => [slot.state]
  | .compressor slot => [slot.state]

/-- The places that a slot holds. -/
def Slot.places : Slot → List Place
  | .empty => []
  | .biquad slot => filterPlaces slot.states
  | .limiter slot => (slot.state.map Place.limiter).toList
  | .compressor slot => (slot.state.map Place.compressor).toList

namespace BiquadSlot

variable (offset : Int16) (double : Bool)

/-- The filters' places come from the table, whatever the other tables hold. -/
theorem commandsFor_claims (channels : List (Fin maxChannels)) (slot : BiquadSlot)
    (table : Array Biquad.State) (others : States) :
    Claims { others with biquad := table }
      { others with biquad := (commandsFor offset double channels slot table).2.1 }
      (filterPlaces slot.states)
      (filterPlaces (commandsFor offset double channels slot table).1.states) := by
  induction channels generalizing slot table with
  | nil => exact .refl _ _
  -- The first channel claims its place, and the rest claim theirs from the states after it.
  | cons channel rest ih => exact (allot_claims channel others table).trans (ih _ _)

/-- Filters get places for their states and nothing else. -/
theorem commandsFor_eq {channels : List (Fin maxChannels)} (distinct : channels.Nodup)
    (slot : BiquadSlot) (table : Array Biquad.State) :
    ∃ states : Vector (Option Nat) maxChannels,
      (commandsFor offset double channels slot table).1 = { slot with states } ∧
      (∀ channel : Fin maxChannels, channel ∉ channels →
        states.get channel = slot.states.get channel) ∧
      (∀ channel ∈ channels, (states.get channel).isSome) ∧
      (commandsFor offset double channels slot table).2.2 = channels.map fun channel =>
        slot.command offset double channel ((states.get channel).getD 0) := by
  induction channels generalizing slot table with
  | nil => exact ⟨slot.states, rfl, fun _ _ => rfl, by simp, rfl⟩
  | cons channel rest ih =>
    obtain ⟨fresh, distinct⟩ := List.nodup_cons.mp distinct
    obtain ⟨states, after, kept, found, commands⟩ := ih distinct
      { slot with
        states := slot.states.set channel (some (allot slot.states[channel] .initial table).1) }
      (allot slot.states[channel] .initial table).2
    -- The later channels leave the place that this one has got.
    have own : states.get channel = some (allot slot.states[channel] .initial table).1 := by
      rw [kept channel fresh, get_set_self]
    -- The rest is taken from the slot and the table as the first channel leaves them.
    refine ⟨states, after, fun other away => ?_, fun other here => ?_, ?_⟩
    · obtain ⟨apart, away⟩ := not_or.mp (mt List.mem_cons.mpr away)
      rw [kept other away, get_set_ne _ apart]
    · rcases List.mem_cons.mp here with rfl | here
      · simp [own]
      · exact found other here
    · simp only [commandsFor, List.map_cons, own, Option.getD_some, List.cons.injEq]
      exact ⟨rfl, commands⟩

/-- Every channel in use gets a filter, with the place that its state has or is given. -/
theorem commands_eq (slot : BiquadSlot) (states : States) :
    ∃ (held : Vector (Option Nat) maxChannels) (table : Array Biquad.State),
      slot.commands offset double states.biquad = ({ slot with states := held }, table,
        slot.channels.map fun channel =>
          slot.command offset double channel ((held.get channel).getD 0)) ∧
      Claims states { states with biquad := table } (filterPlaces slot.states)
        (filterPlaces held) ∧
      ∀ channel ∈ slot.channels, (held.get channel).isSome := by
  -- The channels in use are the first ones, none of them twice.
  have distinct : slot.channels.Nodup :=
    (List.take_sublist _ _).nodup (List.nodup_finRange maxChannels)
  have claims := commandsFor_claims offset double slot.channels slot states.biquad states
  obtain ⟨held, ends, -, found, issued⟩ :=
    commandsFor_eq offset double distinct slot states.biquad
  rw [ends] at claims
  exact ⟨held, _, Prod.ext ends (Prod.ext rfl issued), claims, found⟩

/-- Filters that have places keep them. -/
theorem commandsFor_held {channels : List (Fin maxChannels)} {slot : BiquadSlot}
    (held : ∀ channel ∈ channels, (slot.states.get channel).isSome) (table : Array Biquad.State) :
    commandsFor offset double channels slot table = (slot, table, channels.map fun channel =>
      slot.command offset double channel ((slot.states.get channel).getD 0)) := by
  induction channels with
  | nil => rfl
  | cons channel rest ih =>
    -- A place that is held is neither allotted nor moved, so slot and table stay as they are.
    obtain ⟨place, here⟩ := Option.isSome_iff_exists.mp (held channel (by simp))
    have found : slot.states[channel] = some place := here
    have later := ih fun other there => held other (by simp [there])
    simp only [commandsFor, here, found, allot, set_get slot.states here, List.map_cons,
      Option.getD_some]
    rw [later]

/-- A slot's phase after a frame is not the first one. -/
theorem advance_phase (slot : BiquadSlot) :
    slot.advance.parameters.phase ≠ Phase.initialized.toByte := by
  -- A known phase has become the updated one, and an unknown phase is not the first one either.
  simp only [advance]
  split
  · decide
  · next unknown =>
    intro same
    rw [same] at unknown
    simp at unknown

/-- After a frame a slot's commands are those of the frame without a reset. -/
theorem advance_command (slot : BiquadSlot) (channel : Fin maxChannels) (place : Nat) :
    slot.advance.command offset double channel place =
      { slot.command offset double channel place with reset := false } := by
  have later := slot.advance_phase
  simp only [command, advance_phase, decide_false, Bool.and_false]
  rfl

end BiquadSlot

/-- Indices counted from the first buffer on are themselves. -/
theorem shiftIndices_zero (indices : Vector Int8 maxChannels) :
    shiftIndices indices 0 = .ok (indices.map Int8.toInt16) := by
  -- Every index of one byte fits the wider word, so the check never fails.
  have single : ∀ index : Int8, checkedIndex (index.toInt + (0 : Int16).toInt) =
      pure index.toInt16 := by
    intro index
    have above := index.minValue_le_toInt
    have below := index.toInt_le
    have fits : Int16.minValue.toInt ≤ index.toInt ∧ index.toInt ≤ Int16.maxValue.toInt := by
      simp only [Int8.toInt_minValue, Int8.toInt_maxValue, Int16.toInt_minValue,
        Int16.toInt_maxValue] at *
      omega
    rw [Int16.toInt_zero, Int.add_zero, checkedIndex, if_pos fits, Int16.ofInt_int8ToInt]
    rfl
  rw [shiftIndices, funext single, Vector.mapM_pure]
  rfl

/-- The buffers of a slot's channels in use are those of the first channels. -/
def Slot.Within (channels : Nat) : Slot → Prop
  | .empty => True
  | .biquad slot => ∀ channel ∈ slot.channels,
    Names channels (slot.parameters.inputs.get channel).toInt16 ∧
      Names channels (slot.parameters.outputs.get channel).toInt16
  | .limiter slot => Among channels (min slot.parameters.channels.toNat maxChannels)
    (slot.parameters.inputs.map Int8.toInt16) (slot.parameters.outputs.map Int8.toInt16)
  | .compressor slot => Among channels (min slot.parameters.channels.toInt.toNat maxChannels)
    (slot.parameters.inputs.map Int8.toInt16) (slot.parameters.outputs.map Int8.toInt16)

/-- What a slot issues over the first channels, and issues again after the frame. -/
structure Slot.Starts (channels : Nat) (double : Bool) (slot : Slot) (states : States)
    (after : Slot) (left : States) (commands : List Command) : Prop where
  generates : slot.generate 0 double states = .ok (after, left, commands)
  issue : Issue channels states left slot.places after.places commands
  kept : after.advance.Within channels
  again : ∀ later, after.advance.generate 0 double later =
    .ok (after.advance, later, commands.map Command.steady)

/-- A biquad slot issues a filter for every channel in use. -/
theorem BiquadSlot.starts {channels : Nat} (double : Bool) {slot : BiquadSlot}
    (within : (Slot.biquad slot).Within channels) (states : States) :
    ∃ after left commands,
      (Slot.biquad slot).Starts channels double states after left commands := by
  obtain ⟨held, table, issued, claims, found⟩ := slot.commands_eq 0 double states
  let after : BiquadSlot := { slot with states := held }
  refine ⟨.biquad after, { states with biquad := table }, slot.channels.map fun channel =>
      .biquad (slot.command 0 double channel ((held.get channel).getD 0)), ?_, ?_, within, ?_⟩
  · simp only [Slot.generate, issued, List.map_map]
    rfl
  · refine .filters claims (List.take_sublist _ _) found (fun _ _ => rfl) fun channel used place => ?_
    simp only [Command.Within, BiquadSlot.command, Int16.add_zero]
    exact within channel used
  · intro later
    -- The slot after the frame has the same channels in use, and all of them have places.
    have same := commandsFor_held 0 double
      (show ∀ channel ∈ slot.channels, (after.advance.states.get channel).isSome from found)
      later.biquad
    simp only [Slot.advance, Slot.generate, BiquadSlot.commands]
    rw [show after.advance.channels = slot.channels from rfl, same]
    simp only [advance_command, List.map_map]
    rfl

/-- A limiter slot issues one limiter. -/
theorem LimiterSlot.starts {channels : Nat} (double : Bool) {slot : LimiterSlot}
    (within : (Slot.limiter slot).Within channels) (states : States) :
    ∃ after left commands,
      (Slot.limiter slot).Starts channels double states after left commands := by
  -- The slot holds the place that it has or is given, and its command names the buffers unshifted.
  refine ⟨.limiter { slot with state := some (allot slot.state .initial states.limiter).1 },
    { states with limiter := (allot slot.state .initial states.limiter).2 },
    [.limiter {
      parameters := slot.parameters
      inputs := slot.parameters.inputs.map Int8.toInt16
      outputs := slot.parameters.outputs.map Int8.toInt16
      state := some (allot slot.state .initial states.limiter).1
      enabled := slot.base.enabled }], ?_, ?_, within, ?_⟩
  · simp only [Slot.generate, LimiterSlot.command, shiftIndices_zero, ok_bind, pure_eq_ok]
  · exact .one ((Table.limiter states).claims_one states.limiter rfl) rfl within
  · -- After the frame the place is held, so that nothing is claimed from later tables.
    intro later
    simp only [Slot.advance, LimiterSlot.advance, Slot.generate, LimiterSlot.command, allot,
      shiftIndices_zero, ok_bind, pure_eq_ok]
    rfl

/-- A compressor slot issues one compressor. -/
theorem CompressorSlot.starts {channels : Nat} (double : Bool) {slot : CompressorSlot}
    (within : (Slot.compressor slot).Within channels) (states : States) :
    ∃ after left commands,
      (Slot.compressor slot).Starts channels double states after left commands := by
  refine ⟨.compressor { slot with state := some (allot slot.state .zero states.compressor).1 },
    { states with compressor := (allot slot.state .zero states.compressor).2 },
    [.compressor {
      parameters := slot.parameters
      inputs := slot.parameters.inputs.map Int8.toInt16
      outputs := slot.parameters.outputs.map Int8.toInt16
      state := some (allot slot.state .zero states.compressor).1
      enabled := slot.base.enabled }], ?_, ?_, within, ?_⟩
  · simp only [Slot.generate, CompressorSlot.command, shiftIndices_zero, ok_bind, pure_eq_ok]
  · exact .one ((Table.compressor states).claims_one states.compressor rfl) rfl within
  · -- The place is held after the frame, so that it is the same in later tables.
    intro later
    simp only [Slot.advance, CompressorSlot.advance, Slot.generate, CompressorSlot.command, allot,
      shiftIndices_zero, ok_bind, pure_eq_ok]
    rfl

/-- A slot among the channels issues its commands without a fault. -/
theorem Slot.Within.starts {channels : Nat} {slot : Slot} (within : slot.Within channels)
    (double : Bool) (states : States) :
    ∃ after left commands, slot.Starts channels double states after left commands := by
  cases slot with
  | empty => exact ⟨.empty, states, [], rfl, .none _ _, within, fun _ => rfl⟩
  | biquad slot => exact BiquadSlot.starts double within states
  | limiter slot => exact LimiterSlot.starts double within states
  | compressor slot => exact CompressorSlot.starts double within states

namespace Slot

variable {slot after : Slot} {record : Record} {version : Version} {map : AddressMap}

/-- A slot just created holds no places. -/
@[simp] theorem create_places (kind : Kind) : (create kind).places = [] := by
  -- Filters have a place for each channel, none of which is taken yet.
  cases kind <;> rfl

/-- Slots of one kind with the same handles hold the same places. -/
theorem places_congr {other : Slot} (kind : other.kind = slot.kind)
    (handles : other.handles = slot.handles) : other.places = slot.places := by
  cases slot <;> cases other <;> simp_all [Slot.kind, Slot.handles, places, Vector.toList_inj]

/-- A record of the slot's own kind leaves its kind, its handles and what the guest is told. -/
theorem apply_keeps (ran : slot.apply record version map = .ok after) :
    after.kind = slot.kind ∧ after.handles = slot.handles ∧ after.usage = slot.usage := by
  -- Records set the base and the parameters of a slot, and its usage is not among them.
  cases slot with
  | empty =>
    obtain rfl := Except.ok.inj ran
    exact ⟨rfl, rfl, rfl⟩
  | biquad slot =>
    obtain rfl := Except.ok.inj ran
    refine ⟨rfl, ?_⟩
    simp only [handles, usage, base?, BiquadSlot.receive]
    split <;> exact ⟨rfl, rfl⟩
  | limiter slot =>
    simp only [apply, LimiterSlot.receive, Base.mapWorkBuffer, bind_assoc, map_bind,
      bind_eq_ok] at ran
    obtain ⟨address, -, base, own, ran⟩ := ran
    obtain rfl := Except.ok.inj own
    obtain rfl := Except.ok.inj ran
    exact ⟨rfl, rfl, rfl⟩
  | compressor slot =>
    cases version with
    -- The first records leave a compressor as it is.
    | first =>
      obtain rfl := Except.ok.inj ran
      exact ⟨rfl, rfl, rfl⟩
    | second =>
      simp only [apply, CompressorSlot.receive, Base.mapWorkBuffer, bind_assoc, map_bind,
        bind_eq_ok] at ran
      obtain ⟨address, -, base, own, ran⟩ := ran
      obtain rfl := Except.ok.inj own
      obtain rfl := Except.ok.inj ran
      exact ⟨rfl, rfl, rfl⟩

/-- A record of the slot's own kind leaves its places and its kind. -/
theorem apply_places (ran : slot.apply record version map = .ok after) :
    after.places = slot.places ∧ after.kind = slot.kind := by
  obtain ⟨kind, handles, -⟩ := apply_keeps ran
  exact ⟨places_congr kind handles, kind⟩

/-- A record either replaces the slot, which gives all places up, or keeps its places and kind. -/
theorem receive_places (ran : slot.receive record version map = .ok after) :
    after.places = [] ∨ after.places = slot.places ∧ after.kind = slot.kind := by
  obtain ⟨places, kind⟩ := apply_places ran
  rw [places, kind]
  -- What takes the record is a new slot without places, or the slot itself.
  by_cases replaced : slot.isReplacedBy record
  · left
    simp only [target, replaced, if_true, create_places]
  · right
    simp only [target, replaced, Bool.false_eq_true, if_false, and_self]

/-- After a frame a slot holds the places that it held. -/
@[simp] theorem advance_places (slot : Slot) : slot.advance.places = slot.places := by
  cases slot <;> rfl

/-- After a frame a slot is of the kind that it was. -/
@[simp] theorem advance_kind (slot : Slot) : slot.advance.kind = slot.kind := by
  cases slot <;> rfl

section Issuing

variable {offset : Int16} {double : Bool} {states left : States} {commands : List Command}

/-- A biquad slot issues a filter for every channel in use, and has a place for each afterwards. -/
theorem generate_biquad {slot : BiquadSlot}
    (ran : (Slot.biquad slot).generate offset double states = .ok (after, left, commands)) :
    ∃ held : Vector (Option Nat) maxChannels,
      after = .biquad { slot with states := held } ∧
      Claims states left (filterPlaces slot.states) (filterPlaces held) ∧
      commands = slot.channels.map fun channel =>
        .biquad (slot.command offset double channel ((held.get channel).getD 0)) := by
  obtain ⟨held, table, issued, claims, -⟩ := slot.commands_eq offset double states
  simp only [generate, issued, List.map_map] at ran
  obtain ⟨rfl, rest⟩ := Prod.mk.inj (Except.ok.inj ran)
  obtain ⟨rfl, rfl⟩ := Prod.mk.inj rest
  exact ⟨held, rfl, claims, rfl⟩

/-- A limiter slot issues one limiter with its parameters, and has a place for it afterwards. -/
theorem generate_limiter {slot : LimiterSlot}
    (ran : (Slot.limiter slot).generate offset double states = .ok (after, left, commands)) :
    ∃ inputs outputs,
      after = .limiter { slot with state := some (allot slot.state .initial states.limiter).1 } ∧
      left = { states with limiter := (allot slot.state .initial states.limiter).2 } ∧
      commands = [.limiter {
        parameters := slot.parameters, inputs, outputs
        state := some (allot slot.state .initial states.limiter).1
        enabled := slot.base.enabled }] := by
  -- The place is taken first, and a run whose indices leave their type does not come back.
  simp only [generate, LimiterSlot.command, bind_eq_ok] at ran
  obtain ⟨found, ⟨inputs, -, outputs, -, made⟩, ran⟩ := ran
  obtain rfl := Except.ok.inj made
  obtain ⟨rfl, rest⟩ := Prod.mk.inj (Except.ok.inj ran)
  obtain ⟨rfl, rfl⟩ := Prod.mk.inj rest
  exact ⟨inputs, outputs, rfl, rfl, rfl⟩

/-- A compressor slot issues one compressor with its parameters, and has a place for it. -/
theorem generate_compressor {slot : CompressorSlot}
    (ran : (Slot.compressor slot).generate offset double states = .ok (after, left, commands)) :
    ∃ inputs outputs,
      after = .compressor { slot with state := some (allot slot.state .zero states.compressor).1 } ∧
      left = { states with compressor := (allot slot.state .zero states.compressor).2 } ∧
      commands = [.compressor {
        parameters := slot.parameters, inputs, outputs
        state := some (allot slot.state .zero states.compressor).1
        enabled := slot.base.enabled }] := by
  simp only [generate, CompressorSlot.command, bind_eq_ok] at ran
  obtain ⟨found, ⟨inputs, -, outputs, -, made⟩, ran⟩ := ran
  obtain rfl := Except.ok.inj made
  obtain ⟨rfl, rest⟩ := Prod.mk.inj (Except.ok.inj ran)
  obtain ⟨rfl, rfl⟩ := Prod.mk.inj rest
  exact ⟨inputs, outputs, rfl, rfl, rfl⟩

/-- Making commands claims places in the tables, and leaves the slot's kind. -/
theorem generate_claims
    (ran : slot.generate offset double states = .ok (after, left, commands)) :
    Claims states left slot.places after.places ∧ after.kind = slot.kind := by
  -- Filters claim a place each, and the other kinds have one place alone.
  cases slot with
  | empty =>
    obtain ⟨rfl, rest⟩ := Prod.mk.inj (Except.ok.inj ran)
    obtain ⟨rfl, -⟩ := Prod.mk.inj rest
    exact ⟨.refl states [], rfl⟩
  | biquad slot =>
    obtain ⟨held, rfl, claims, -⟩ := generate_biquad ran
    exact ⟨claims, rfl⟩
  | limiter slot =>
    obtain ⟨inputs, outputs, rfl, rfl, -⟩ := generate_limiter ran
    exact ⟨(Table.limiter states).claims_one states.limiter rfl, rfl⟩
  | compressor slot =>
    obtain ⟨inputs, outputs, rfl, rfl, -⟩ := generate_compressor ran
    exact ⟨(Table.compressor states).claims_one states.compressor rfl, rfl⟩

/-- A slot issues at most one command for each channel that an effect can have. -/
theorem length_generate_le
    (ran : slot.generate offset double states = .ok (after, left, commands)) :
    commands.length ≤ maxChannels := by
  cases slot with
  | empty =>
    cases ran
    exact Nat.zero_le _
  | biquad slot =>
    -- A filter slot issues one command for each channel in use.
    obtain ⟨held, -, -, rfl⟩ := generate_biquad ran
    rw [List.length_map, BiquadSlot.channels, List.length_take, List.length_finRange]
    exact Nat.min_le_right _ _
  | limiter slot =>
    -- A slot of any other kind issues one command for all channels.
    obtain ⟨inputs, outputs, -, -, rfl⟩ := generate_limiter ran
    exact show 1 ≤ maxChannels by decide
  | compressor slot =>
    obtain ⟨inputs, outputs, -, -, rfl⟩ := generate_compressor ran
    exact show 1 ≤ maxChannels by decide

end Issuing

end Slot

end Mixdown.Effect
