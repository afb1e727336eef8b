import Mixdown.Proofs.Effect.Bay

/-!
Requests of the guest reach one frame, and what the guest is told of a slot is what the last frame
has seen of it.
-/

namespace Mixdown

/-- Parameters are still on their passage when a phase before the last one stands in them. -/
def Phase.isPassing (byte : UInt8) : Bool :=
  byte = Phase.initialized.toByte || byte = Phase.updating.toByte

/-- A command carries a request: parameters on their passage, or a state or statistics to reset. -/
def Command.requests : Command → Bool
  | .biquad command => command.reset
  | .limiter command => Phase.isPassing command.parameters.phase
  | .compressor command =>
    Phase.isPassing command.parameters.phase || command.parameters.statisticsReset ≠ 0

namespace Effect

namespace Slot

/-- A record of the slot's own kind is copied, unless it has no room for the kind's parameters. -/
def copies (version : Version) : Slot → Bool
  | .empty => false
  | .biquad _ | .limiter _ => true
  | .compressor _ => version = .second

/-- No request stands in the slot. -/
def Quiet : Slot → Prop
  | .empty => True
  | .biquad slot => slot.parameters.phase ≠ Phase.initialized.toByte
  | .limiter slot => slot.parameters.phase = Phase.updated.toByte
  | .compressor slot =>
    slot.parameters.phase = Phase.updated.toByte ∧ slot.parameters.statisticsReset = 0

/-- Commands are those that the slot issues for a frame, whatever states there are. -/
def Issues (slot : Slot) (offset : Int16) (double : Bool) (commands : List Command) : Prop :=
  ∃ states after left, slot.generate offset double states = .ok (after, left, commands)

variable {slot after : Slot} {record : Record} {version : Version} {map : AddressMap}
  {offset : Int16} {double : Bool} {states left : States} {commands : List Command}

/-- A slot is of no kind when it is empty. -/
theorem kind_eq_none : slot.kind = .none ↔ slot = .empty := by
  cases slot <;> simp [kind]

/-- A slot just created is told to be new, unless it is empty. -/
theorem create_usage (kind : Kind) : create kind = .empty ∨ (create kind).usage = .new := by
  cases kind <;> first | exact .inl rfl | exact .inr rfl

/-- A record that is not copied leaves the slot as it is. -/
theorem apply_ignored (ran : slot.apply record version map = .ok after)
    (ignored : slot.copies version = false) : after = slot := by
  -- A slot copies what it reads, unless it is empty or a compressor that gets a first record.
  cases slot with
  | empty => exact (Except.ok.inj ran).symm
  | biquad slot => simp [copies] at ignored
  | limiter slot => simp [copies] at ignored
  | compressor slot =>
    cases version with
    | first => exact (Except.ok.inj ran).symm
    | second => simp [copies] at ignored

/-- After a frame no request stands in the slot. -/
theorem advance_quiet (slot : Slot) : slot.advance.Quiet := by
  -- A frame puts every phase to the last one, and takes back what a compressor was asked to
  -- reset.
  cases slot with
  | empty => trivial
  | biquad slot => exact slot.advance_phase
  | limiter slot => rfl
  | compressor slot => exact ⟨rfl, rfl⟩

/-- After a frame the guest is told whether the slot was enabled. -/
theorem advance_usage (filled : slot ≠ .empty) :
    slot.advance.usage = if slot.isEnabled then .enabled else .disabled := by
  cases slot with
  | empty => exact absurd rfl filled
  | biquad slot => rfl
  | limiter slot => rfl
  | compressor slot => rfl

/-- Making commands leaves what the slot keeps whatever its kind. -/
theorem generate_base (ran : slot.generate offset double states = .ok (after, left, commands)) :
    after.base? = slot.base? := by
  -- Making commands sets places of states, and a place is no part of the base.
  cases slot with
  | empty =>
    obtain ⟨rfl, -⟩ := Prod.mk.inj (Except.ok.inj ran)
    rfl
  | biquad slot =>
    obtain ⟨held, rfl, -⟩ := generate_biquad ran
    rfl
  | limiter slot =>
    obtain ⟨inputs, outputs, rfl, -⟩ := generate_limiter ran
    rfl
  | compressor slot =>
    obtain ⟨inputs, outputs, rfl, -⟩ := generate_compressor ran
    rfl

/-- A slot in which no request stands makes commands without one. -/
theorem Quiet.issued (quiet : slot.Quiet)
    (ran : slot.generate offset double states = .ok (after, left, commands)) :
    ∀ command ∈ commands, command.requests = false := by
  intro command here
  cases slot with
  | empty =>
    obtain ⟨-, rest⟩ := Prod.mk.inj (Except.ok.inj ran)
    obtain ⟨-, rfl⟩ := Prod.mk.inj rest
    cases here
  | biquad slot =>
    -- A filter is reset in the first phase only.
    obtain ⟨held, -, -, rfl⟩ := generate_biquad ran
    obtain ⟨channel, -, rfl⟩ := List.mem_map.mp here
    have phase : slot.parameters.phase ≠ Phase.initialized.toByte := quiet
    simp only [Command.requests, BiquadSlot.command, phase, decide_false, Bool.and_false]
  | limiter slot =>
    obtain ⟨inputs, outputs, -, -, rfl⟩ := generate_limiter ran
    obtain rfl := List.mem_singleton.mp here
    have phase : slot.parameters.phase = Phase.updated.toByte := quiet
    simp only [Command.requests, phase]
    rfl
  | compressor slot =>
    obtain ⟨inputs, outputs, -, -, rfl⟩ := generate_compressor ran
    obtain rfl := List.mem_singleton.mp here
    obtain ⟨phase, statistics⟩ :
      slot.parameters.phase = Phase.updated.toByte ∧ slot.parameters.statisticsReset = 0 := quiet
    simp only [Command.requests, phase, statistics]
    rfl

end Slot

namespace Rack

/-- What can happen to a rack. -/
inductive Event where
  /-- Records arrive for all slots. -/
  | receive (blob : Bytes) (version : Version) (map : AddressMap)
  /-- All slots issue the commands of a frame and go on to the next one. -/
  | frame (offset : Int16) (double : Bool) (states : States)

namespace Event

/-- The rack after an event. -/
def apply (rack : Rack) : Event → Except Error Rack
  | receive blob version map => do
    let (after, _) ← rack.update blob version map
    pure after
  | frame offset double states => do
    let (after, _, _) ← (rack.generate offset double states : Except Fault _)
    pure after.advance

/-- Whether an event is a frame. -/
def isFrame : Event → Bool
  | receive .. => false
  | frame .. => true

end Event

/-- An event of a run, with the rack that it met. -/
structure Moment where
  rack : Rack
  event : Event

namespace Moment

/-- Whether a record that passes a test arrives for the slot at an index. -/
def delivers (test : Slot → Record → Version → Bool) (moment : Moment) (index : Nat) : Bool :=
  match moment.event with
  | .frame .. => false
  | .receive blob version _ =>
    match moment.rack.slots[index]?, Record.at? blob index with
    | some slot, some record => test slot record version
    | _, _ => false

/-- Whether the slot at an index is created or replaced. -/
def replaces : Moment → Nat → Bool :=
  delivers fun slot record _ => slot.isReplacedBy record

/-- Whether the slot at an index is created or replaced, or a record is copied into it. -/
def supplies : Moment → Nat → Bool :=
  delivers fun slot record version => slot.isReplacedBy record || slot.copies version

end Moment

/-- The racks that are reached from a first one, with their past, the latest moment in front. -/
inductive Run (first : Rack) : List Moment → Rack → Prop where
  | begun : Run first [] first
  | next {past : List Moment} {rack after : Rack} {event : Event} :
    Run first past rack → event.apply rack = .ok after → Run first (⟨rack, event⟩ :: past) after

/-- The moments since the last frame. -/
def sinceFrame (past : List Moment) : List Moment :=
  past.takeWhile fun moment => !moment.event.isFrame

/-- The last frame, if there has been one. -/
def lastFrame? (past : List Moment) : Option Moment :=
  past.find? fun moment => moment.event.isFrame

/-- All slots began empty, or a frame has gone over whatever stood in them. -/
def Settled (first : Rack) (past : List Moment) : Prop :=
  (∀ slot ∈ first.slots, slot = .empty) ∨ ∃ moment ∈ past, moment.event.isFrame

/-- What the guest is told of a slot with a past. -/
structure Told (past : List Moment) (index : Nat) (slot : Slot) : Prop where
  invalid : slot.usage = .invalid ↔ slot = .empty
  /-- A slot is new while no frame has seen it. -/
  new : slot.usage = .new ↔ slot ≠ .empty ∧ ∃ moment ∈ sinceFrame past, moment.replaces index
  /-- Any other slot is what it was at the last frame, whatever has come after that. -/
  seen : slot ≠ .empty → (∀ moment ∈ sinceFrame past, ¬moment.replaces index) →
    ∃ moment old, lastFrame? past = some moment ∧ moment.rack.slots[index]? = some old ∧
      slot.usage = if old.isEnabled then .enabled else .disabled

section Steps

variable {past : List Moment} {rack after : Rack} {index : Nat} {slot : Slot}

/-- After a frame each slot is one that has issued commands and gone on. -/
theorem exists_of_frame {offset : Int16} {double : Bool} {states : States}
    (ran : (Event.frame offset double states).apply rack = .ok after)
    (found : after.slots[index]? = some slot) :
    ∃ old made early late issued, rack.slots[index]? = some old ∧
      old.generate offset double early = .ok (made, late, issued) ∧ slot = made.advance := by
  obtain ⟨⟨made, left, commands⟩, lifted, ran⟩ := bind_eq_ok.mp ran
  obtain rfl := Except.ok.inj ran
  obtain ⟨⟨slots, late, issued⟩, generated, ran⟩ := bind_eq_ok.mp (eq_ok_of_lift lifted)
  obtain ⟨rfl, -⟩ := Prod.mk.inj (Except.ok.inj ran)
  obtain ⟨own, -, -, length, each⟩ := generateFrom_cases generated
  simp only [advance, List.getElem?_map] at found
  obtain ⟨made, here, rfl⟩ := Option.map_eq_some_iff.mp found
  -- As many slots come out as went in, so one stood in this place before.
  obtain ⟨inside, -⟩ := List.getElem?_eq_some_iff.mp here
  have held := List.getElem?_eq_getElem (length ▸ inside)
  obtain ⟨new, issued, early, late, there, -, own⟩ := each index _ held
  obtain rfl := Option.some.inj (here.symm.trans there)
  exact ⟨_, made, early, late, issued, held, own, rfl⟩

/-- After records have arrived each slot is what its own record has made of it. -/
theorem exists_of_receive {blob : Bytes} {version : Version} {map : AddressMap}
    (ran : (Event.receive blob version map).apply rack = .ok after)
    (found : after.slots[index]? = some slot) :
    ∃ old record, rack.slots[index]? = some old ∧ Record.at? blob index = some record ∧
      old.receive record version map = .ok slot := by
  obtain ⟨⟨made, taken⟩, updated, ran⟩ := bind_eq_ok.mp ran
  obtain rfl := Except.ok.inj ran
  exact exists_of_update updated found

/-- What arrives for a slot is its own record. -/
theorem Moment.delivers_receive {blob : Bytes} {record : Record} (version : Version)
    (map : AddressMap) (held : rack.slots[index]? = some slot)
    (named : Record.at? blob index = some record) (test : Slot → Record → Version → Bool) :
    Moment.delivers test ⟨rack, .receive blob version map⟩ index = test slot record version := by
  simp only [delivers, held, named]

/-- Records that arrive are the last thing since the last frame. -/
theorem sinceFrame_receive (blob : Bytes) (version : Version) (map : AddressMap) :
    sinceFrame (⟨rack, .receive blob version map⟩ :: past) =
      ⟨rack, .receive blob version map⟩ :: sinceFrame past := rfl

/-- A run that has received records was settled before. -/
theorem Settled.of_receive {first : Rack} {blob : Bytes} {version : Version} {map : AddressMap}
    (settled : Settled first (⟨rack, .receive blob version map⟩ :: past)) : Settled first past := by
  -- A record is not a frame, so the frame that settled the run is one of the earlier moments.
  obtain empty | ⟨moment, here, frame⟩ := settled
  · exact .inl empty
  · obtain rfl | there := List.mem_cons.mp here
    · cases frame
    · exact .inr ⟨moment, there, frame⟩

/-- A request stands in a slot only when the slot was created or given a record since a frame. -/
theorem Run.quiet {first : Rack} (run : Run first past rack) (settled : Settled first past)
    (found : rack.slots[index]? = some slot) :
    slot.Quiet ∨ ∃ moment ∈ sinceFrame past, moment.supplies index := by
  -- The last event decides: a frame quiets each slot, and a record only asks of the slot it
  -- reaches.
  induction run generalizing slot with
  | begun =>
    obtain empty | ⟨moment, here, -⟩ := settled
    · obtain rfl := empty slot (List.mem_of_getElem? found)
      exact .inl trivial
    · cases here
  | @next past rack after event run ran ih =>
    cases event with
    | frame offset double states =>
      obtain ⟨old, made, early, late, issued, -, -, rfl⟩ := exists_of_frame ran found
      exact .inl made.advance_quiet
    | receive blob version map =>
      obtain ⟨old, record, held, named, received⟩ := exists_of_receive ran found
      rw [sinceFrame_receive]
      have supplied := Moment.delivers_receive version map held named
        fun slot record version => slot.isReplacedBy record || slot.copies version
      -- Either the record supplies the slot, or the slot is as quiet as the run before has left it.
      by_cases arrives : old.isReplacedBy record || old.copies version
      · exact .inr ⟨_, List.mem_cons_self, supplied.trans arrives⟩
      · -- A slot that takes nothing of its record is the one that stood there before.
        simp only [Bool.or_eq_true, not_or, Bool.not_eq_true] at arrives
        obtain ⟨stays, ignored⟩ := arrives
        rw [Slot.receive, Slot.target, stays, if_neg Bool.false_ne_true] at received
        obtain rfl := Slot.apply_ignored received ignored
        obtain quiet | ⟨moment, there, supplies⟩ := ih settled.of_receive held
        · exact .inl quiet
        · exact .inr ⟨moment, List.mem_cons_of_mem _ there, supplies⟩

/-- A slot is empty, or new since a frame, or what the last frame has seen of it. -/
theorem Run.usage_cases {first : Rack} (run : Run first past rack) (settled : Settled first past)
    (found : rack.slots[index]? = some slot) :
    slot = .empty ∨
    (slot.usage = .new ∧ ∃ moment ∈ sinceFrame past, moment.replaces index) ∨
    ((∀ moment ∈ sinceFrame past, ¬moment.replaces index) ∧
      ∃ moment old, lastFrame? past = some moment ∧ moment.rack.slots[index]? = some old ∧
        slot.usage = if old.isEnabled then .enabled else .disabled) := by
  -- The last event decides: after a frame it is the frame that told, after a record the past did.
  induction run generalizing slot with
  | begun =>
    obtain empty | ⟨moment, here, -⟩ := settled
    · exact .inl (empty slot (List.mem_of_getElem? found))
    · cases here
  | @next past rack after event run ran ih =>
    cases event with
    | frame offset double states =>
      obtain ⟨old, made, early, late, issued, held, own, rfl⟩ := exists_of_frame ran found
      by_cases filled : made = .empty
      · obtain rfl := filled
        exact .inl rfl
      · -- The frame has seen the slot with the flag that the slot had before its commands.
        have same : made.isEnabled = old.isEnabled := by
          rw [Slot.isEnabled, Slot.isEnabled, Slot.generate_base own]
        exact .inr (.inr ⟨by simp [sinceFrame, Event.isFrame], _, old, rfl, held,
          same ▸ Slot.advance_usage filled⟩)
    | receive blob version map =>
      obtain ⟨old, record, held, named, received⟩ := exists_of_receive ran found
      obtain ⟨kind, -, usage⟩ := Slot.apply_keeps received
      have replaced := Moment.delivers_receive version map held named
        fun slot record _ => slot.isReplacedBy record
      simp only [sinceFrame_receive, List.forall_mem_cons]
      -- A slot that is replaced is new, and one that is kept goes on with what it has been told.
      by_cases arrives : old.isReplacedBy record
      · rw [Slot.target, if_pos arrives] at kind usage
        obtain empty | new := Slot.create_usage (.ofByte record.kind)
        · exact .inl (Slot.kind_eq_none.mp (kind.trans (Slot.kind_eq_none.mpr empty)))
        · exact .inr (.inl ⟨usage.trans new, _, List.mem_cons_self, replaced.trans arrives⟩)
      · rw [Slot.target, if_neg arrives] at kind usage
        obtain rfl | ⟨new, moment, there, replaces⟩ | ⟨never, seen⟩ := ih settled.of_receive held
        · exact .inl (Slot.kind_eq_none.mp kind)
        · exact .inr (.inl ⟨usage.trans new, moment, List.mem_cons_of_mem _ there, replaces⟩)
        · refine .inr (.inr ⟨⟨fun replaces => arrives (replaced.symm.trans replaces), never⟩, ?_⟩)
          obtain ⟨moment, last, frame, was, told⟩ := seen
          exact ⟨moment, last, frame, was, usage.trans told⟩

/-- What the guest is told of a slot is what its past says. -/
theorem Run.told {first : Rack} (run : Run first past rack) (settled : Settled first past)
    (found : rack.slots[index]? = some slot) : Told past index slot := by
  -- The three cases exclude each other by what the guest is told.
  obtain rfl | ⟨new, since⟩ | ⟨never, moment, old, frame, was, seen⟩ :=
    run.usage_cases settled found
  case inl =>
    have invalid : Slot.empty.usage = .invalid := rfl
    exact {
      invalid := iff_of_true invalid rfl
      new := iff_of_false (by simp [invalid]) fun named => named.1 rfl
      seen := fun filled => absurd rfl filled }
  case inr.inl =>
    have filled : slot ≠ .empty := by
      rintro rfl
      cases new
    obtain ⟨moment, here, replaces⟩ := since
    exact {
      invalid := iff_of_false (by simp [new]) filled
      new := iff_of_true new ⟨filled, moment, here, replaces⟩
      seen := fun _ never => absurd replaces (never moment here) }
  case inr.inr =>
    have filled : slot ≠ .empty := by
      rintro rfl
      split at seen <;> cases seen
    -- A frame tells one of two usages, neither of which is that of an empty or of a new slot.
    have old : slot.usage ≠ .invalid ∧ slot.usage ≠ .new := by
      rw [seen]
      split <;> decide
    exact {
      invalid := iff_of_false old.1 filled
      new := iff_of_false old.2 fun ⟨_, _, here, replaces⟩ => never _ here replaces
      seen := fun _ _ => ⟨moment, _, frame, was, seen⟩ }

end Steps

/--
In a run whose slots began empty, or over which a frame has gone, each slot issues its own commands
of a frame, and one that carries a request is issued only if the slot was created or given a record
since the frame before. What the guest is told of a slot at any time is what its past says.
-/
theorem Run.lifecycle {first rack : Rack} {past : List Moment} (run : Run first past rack)
    (settled : Settled first past) :
    (∀ offset double states after left commands,
      rack.generate offset double states = .ok (after, left, commands) →
      ∃ own : List (List Command), commands = own.flatten ∧ own.length = rack.size ∧
        ∀ (index : Nat) (slot : Slot), rack.slots[index]? = some slot →
          ∃ issued, own[index]? = some issued ∧ slot.Issues offset double issued ∧
            ∀ command ∈ issued, command.requests →
              ∃ moment ∈ sinceFrame past, moment.supplies index) ∧
      ∀ (index : Nat) (slot : Slot), rack.slots[index]? = some slot →
        rack.statuses[index]? = some (slot.usage.toByte :: Bytes.zeros 15) ∧
          Told past index slot := by
  constructor
  · intro offset double states after left commands ran
    obtain ⟨⟨slots, late, issued⟩, generated, ran⟩ := bind_eq_ok.mp ran
    obtain ⟨-, ends⟩ := Prod.mk.inj (Except.ok.inj ran)
    obtain ⟨-, rfl⟩ := Prod.mk.inj ends
    obtain ⟨own, flat, length, -, each⟩ := generateFrom_cases generated
    refine ⟨own, flat, length, fun index slot found => ?_⟩
    obtain ⟨new, issued, early, late, -, here, made⟩ := each index slot found
    refine ⟨issued, here, ⟨early, new, late, made⟩, fun command among requests => ?_⟩
    -- In a quiet slot there is no request that a command could carry.
    refine (run.quiet settled found).resolve_left fun quiet => ?_
    rw [quiet.issued made command among] at requests
    cases requests
  · intro index slot found
    refine ⟨?_, run.told settled found⟩
    simp only [statuses, List.getElem?_map, found, Option.map_some, Slot.status]

/-- A new limiter issues a reset in its first frame, and none in the next one. -/
theorem Run.lifecycle_limiter :
    let receive : Event := .receive (Record.create .limiter 0 []).encode .second .identity
    let frame : Event := .frame 0 false .empty
    ∃ middle last,
      Run (create 1 0) [⟨middle, frame⟩, ⟨create 1 0, receive⟩] last ∧
      Settled (create 1 0) [⟨middle, frame⟩, ⟨create 1 0, receive⟩] ∧
      last.statuses = [Usage.enabled.toByte :: Bytes.zeros 15] ∧
      (middle.generate 0 false .empty).map (·.2.2.map Command.requests) = .ok [true] ∧
      ∃ after left command, last.generate 0 false .empty = .ok (after, left, [command]) ∧
        command.requests = false := by
  intro receive frame
  -- It is enough to see that events end well, whatever the rack looks like then.
  have ends : ∀ (event : Event) (rack : Rack), (event.apply rack).isOk = true →
      event.apply rack = .ok ((event.apply rack).toOption.getD rack) := by
    intro event rack well
    cases ran : event.apply rack with
    | error fault => simp [ran, Except.isOk, Except.toBool] at well
    | ok after => rfl
  let middle := (receive.apply (create 1 0)).toOption.getD (create 1 0)
  let last := (frame.apply middle).toOption.getD middle
  have run : Run (create 1 0) [⟨middle, frame⟩, ⟨create 1 0, receive⟩] last :=
    .next (.next .begun (ends receive _ (by decide +kernel))) (ends frame _ (by decide +kernel))
  have settled : Settled (create 1 0) [⟨middle, frame⟩, ⟨create 1 0, receive⟩] :=
    .inl fun slot here => List.eq_of_mem_replicate here
  refine ⟨middle, last, run, settled, by decide +kernel, by decide +kernel, ?_⟩
  have made : (last.generate 0 false .empty).map (·.2.2.length) = .ok 1 := by decide +kernel
  cases ran : last.generate 0 false .empty with
  | error fault => cases ran ▸ made
  | ok made =>
    obtain ⟨after, left, commands⟩ := made
    obtain ⟨command, rfl⟩ := List.length_eq_one_iff.mp (Except.ok.inj (ran ▸ made))
    obtain ⟨issues, -⟩ := run.lifecycle settled
    obtain ⟨own, flat, length, each⟩ := issues 0 false .empty after left [command] ran
    refine ⟨after, left, command, rfl, Bool.eq_false_iff.mpr fun requests => ?_⟩
    have among : command ∈ own.flatten := flat ▸ List.mem_singleton_self command
    obtain ⟨issued, here, among⟩ := List.mem_flatten.mp among
    obtain ⟨index, named⟩ := List.mem_iff_getElem?.mp here
    obtain ⟨inside, -⟩ := List.getElem?_eq_some_iff.mp named
    have held := List.getElem?_eq_getElem (inside.trans_eq length)
    obtain ⟨other, also, -, since⟩ := each index _ held
    obtain rfl := Option.some.inj (named.symm.trans also)
    -- Nothing has come since the frame, so that no request can be left.
    obtain ⟨moment, never, -⟩ := since command among requests
    cases never

end Rack

end Effect

end Mixdown
