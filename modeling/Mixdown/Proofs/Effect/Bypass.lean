import Mathlib.Data.List.Induction
import Mixdown.Proofs.Echo
import Mixdown.Proofs.Effect.Slot

/-!
A biquad slot that is not enabled runs the pass-through filter on the states that it was left with,
so that its input passes unchanged once these are silent and not before.
-/

namespace Mixdown.Effect

/-- A biquad slot and the mixer that its commands run on. -/
structure Bench where
  slot : BiquadSlot
  mixer : Mixer
  deriving DecidableEq

namespace Bench

/-- What can happen to a slot and its mixer. -/
inductive Event where
  | receive (record : Record) (version : Version)
  /-- Other samples are put into the mixer. -/
  | load (arena : Arena)
  /-- The slot issues its commands, they are run, and the slot goes on to the next frame. -/
  | frame (offset : Int16)

/-- The commands of a frame in integer arithmetic, with a place in the mixer for each state. -/
def issue (bench : Bench) (offset : Int16) : Bench × List BiquadCommand :=
  let (slot, biquad, commands) := bench.slot.commands offset false bench.mixer.states.biquad
  (⟨slot, { bench.mixer with states := { bench.mixer.states with biquad } }⟩, commands)

/-- A slot and its mixer after an event. -/
def Event.apply (bench : Bench) : Event → Except Fault Bench
  | receive record version => .ok { bench with slot := bench.slot.receive record version }
  | load arena => .ok { bench with mixer := { bench.mixer with arena } }
  | frame offset => do
    let (issued, commands) := bench.issue offset
    let (mixer, _) ← issued.mixer.process (commands.map .biquad)
    pure ⟨issued.slot.advance, mixer⟩

/-- A new slot and a mixer after events. -/
def runs (mixer : Mixer) (events : List Event) : Except Fault Bench :=
  events.foldlM Event.apply ⟨.new, mixer⟩

/-- No frame of a run finds the slot enabled. -/
def Idle (mixer : Mixer) (events : List Event) : Prop :=
  ∀ (front : List Event) (offset : Int16) (back : List Event) (bench : Bench),
    events = front ++ .frame offset :: back → runs mixer front = .ok bench →
      bench.slot.base.enabled = false

/-- What a command of a slot that is not enabled does with the samples and the state it finds. -/
structure Passes (command : BiquadCommand) (route : Route) (state : Biquad.State)
    (before after : Mixer) : Prop where
  /-- What is left in the state is added to the first two samples. -/
  output : after.arena.slice route.output =
    Biquad.echoes [state.s0, state.s1] (before.arena.slice route.input)
  later : (after.arena.slice route.output).drop 2 = (before.arena.slice route.input).drop 2
  unchanged : state.Silent → after.arena.slice route.output = before.arena.slice route.input
  /-- A frame of two samples and more leaves nothing for the next one. -/
  spent : 2 ≤ before.frame → command.state? after = some { state with s0 := 0, s1 := 0 }

/-- There is a steady state at each of some places. -/
def Holds (steady : Biquad.State → Prop) (states : States) (places : List Place) : Prop :=
  ∀ place ∈ places, ∃ state, states.read place = some (.biquad state) ∧ steady state

/-- A command keeps its state at one of some places, and leaves a steady one if it has found one. -/
structure Keeps (steady : Biquad.State → Prop) (places : List Place) (command : BiquadCommand) :
    Prop where
  placed : ∃ place ∈ places, (Command.biquad command).place? = some place
  settled : ∀ held, steady held → command.Settled (command.begin held)
  left : ∀ held, steady held → ∀ samples, steady (feed command.next (command.begin held) samples).1

/-- A calm state, which is silent besides as long as the slot has been idle. -/
def Kept (idle : Prop) (state : Biquad.State) : Prop := state.Calm ∧ (idle → state.Silent)

variable {steady : Biquad.State → Prop} {idle : Prop} {bench after : Bench} {mixer : Mixer}
  {places : List Place} {command : BiquadCommand} {commands : List BiquadCommand} {offset : Int16}

section Command

variable {before after : Mixer} {route : Route} {held : Biquad.State}

/-- A filter leaves a steady state at its own place, and all others as they were. -/
theorem Holds.filtered (holds : Holds steady before.states places) (keeps : Keeps steady places command)
    (good : steady held) (filtered : command.Filtered route held before after) :
    Holds steady after.states places := by
  -- The filter writes its own place, where its kernel leaves a steady state, and no other.
  intro place among
  by_cases own : (Command.biquad command).place? = some place
  · exact ⟨_, (BiquadCommand.state?_eq_some own).mp filtered.state, keeps.left held good _⟩
  · rw [filtered.others place own]
    exact holds place among

/-- A filter that can run does so, from a steady state. -/
theorem Holds.process (holds : Holds steady before.states places) (keeps : Keeps steady places command)
    (verified : command.verify before = true) :
    ∃ route held after, command.route? before = some route ∧ command.state? before = some held ∧
      steady held ∧ command.process before = .ok after ∧ command.Filtered route held before after := by
  -- A filter that passes verification has its route, and its state is one of those that are steady.
  obtain ⟨-, route, routed⟩ := BiquadCommand.verify_eq_true.mp verified
  obtain ⟨place, among, placed⟩ := keeps.placed
  obtain ⟨held, found, good⟩ := holds place among
  have live := (BiquadCommand.state?_eq_some placed).mpr found
  obtain ⟨after, processed, filtered⟩ :=
    BiquadCommand.process_filtered live routed (keeps.settled held good)
  exact ⟨route, held, after, routed, live, good, processed, filtered⟩

/-- Filters run one behind the other, and those that cannot run are skipped. -/
theorem Holds.processFrom (holds : Holds steady before.states places)
    (keeps : ∀ command ∈ commands, Keeps steady places command) (report : Report) :
    ∃ after report', before.processFrom report (commands.map .biquad) = .ok (after, report') ∧
      Holds steady after.states places := by
  -- A filter leaves steady states to those behind it, with which it may share its buffers.
  induction commands generalizing before report with
  | nil => exact ⟨before, report, rfl, holds⟩
  | cons command commands ih =>
    have first := keeps command (by simp)
    have rest := fun other here => keeps other (List.mem_cons_of_mem command here)
    by_cases verified : command.verify before = true
    · obtain ⟨route, held, middle, -, -, good, processed, filtered⟩ := holds.process first verified
      obtain ⟨after, report', ran, kept⟩ := ih (holds.filtered first good filtered) rest
        { report with processed := report.processed + 1 }
      refine ⟨after, report', ?_, kept⟩
      simp only [List.map_cons, Mixer.processFrom, Command.verify, verified, if_true,
        Command.process, processed, ok_bind, ran]
    · obtain ⟨after, report', ran, kept⟩ := ih holds rest
        { report with skipped := report.skipped + 1 }
      refine ⟨after, report', ?_, kept⟩
      simp only [List.map_cons, Mixer.processFrom, Command.verify, verified, Bool.false_eq_true,
        if_false, ran]

end Command

/-- Filters that are given places have steady states there, if a new state is steady. -/
theorem Holds.claims {old new : States} {before after : Vector (Option Nat) maxChannels}
    (holds : Holds steady old (filterPlaces before))
    (claims : Claims old new (filterPlaces before) (filterPlaces after)) (fresh : steady .initial) :
    Holds steady new (filterPlaces after) := by
  intro place among
  -- A place was held before, or its state is a new one.
  rcases claims.origin place among with held | ⟨-, memory, found, new⟩
  · obtain ⟨state, found, good⟩ := holds place held
    exact ⟨state, claims.keeps place _ found, good⟩
  · obtain ⟨handle, -, own⟩ := List.mem_filterMap.mp among
    obtain ⟨index, -, rfl⟩ := Option.map_eq_some_iff.mp own
    obtain ⟨state, here, rfl⟩ := Option.map_eq_some_iff.mp found
    obtain rfl : state = .initial := new
    exact ⟨.initial, found, fresh⟩

/-- Commands are those of channels that have places by then. -/
theorem issue_eq (bench : Bench) (offset : Int16) :
    ∃ held states, (bench.issue offset).1 =
        ⟨{ bench.slot with states := held }, { bench.mixer with states }⟩ ∧
      Claims bench.mixer.states states (filterPlaces bench.slot.states) (filterPlaces held) ∧
      ∀ command ∈ (bench.issue offset).2, ∃ channel place, .biquad place ∈ filterPlaces held ∧
        command = bench.slot.command offset false channel place := by
  -- Making commands claims places, and every command works at one of these.
  obtain ⟨held, table, issued, claims, found⟩ :=
    bench.slot.commands_eq offset false bench.mixer.states
  refine ⟨held, _, ?_, claims, ?_⟩
  · simp only [issue, issued]
  · intro command among
    simp only [issue, issued] at among
    obtain ⟨channel, used, rfl⟩ := List.mem_map.mp among
    -- A channel in use has its place among the claimed ones.
    obtain ⟨place, here⟩ := Option.isSome_iff_exists.mp (found channel used)
    refine ⟨channel, place, List.mem_filterMap.mpr ⟨some place, ?_, rfl⟩, by simp [here]⟩
    rw [← here]
    exact Vector.mem_toList_iff.mpr (Vector.getElem_mem channel.isLt)

section Slot

variable {slot : BiquadSlot} {channel : Fin maxChannels} {place : Nat}

/-- Without being enabled a slot runs the pass-through filter, and resets no state. -/
theorem command_disabled (disabled : slot.base.enabled = false) (offset : Int16)
    (channel : Fin maxChannels) (place : Nat) :
    (slot.command offset false channel place).next = Biquad.integerNext .passThrough ∧
      ∀ held, (slot.command offset false channel place).begin held = held := by
  simp [BiquadSlot.command, BiquadCommand.next, BiquadCommand.begin, disabled]

/-- Every command of a slot leaves its state calm, and silent as long as the slot is idle. -/
theorem keeps_command (among : .biquad place ∈ places)
    (still : idle → slot.base.enabled = false) :
    Keeps (Kept idle) places (slot.command offset false channel place) := by
  have settled (held : Biquad.State) (kept : Kept idle held) :
      (slot.command offset false channel place).Settled
        ((slot.command offset false channel place).begin held) :=
    BiquadCommand.settled_begin rfl fun _ => kept.1
  refine ⟨⟨_, among, rfl⟩, settled, fun held kept samples => ⟨?_, ?_⟩⟩
  · exact (BiquadCommand.settled_iff_calm rfl _).mp
      (BiquadCommand.filter_eq _ held (settled held kept) samples).2
  · -- A slot that is not enabled runs the filter that lets silence pass.
    intro quiet
    obtain ⟨next, begins⟩ := command_disabled (still quiet) offset channel place
    rw [next, begins, Biquad.feed_silent (kept.2 quiet)]
    exact kept.2 quiet

/-- A command of a slot that is not enabled lets its input pass, but for what is left behind. -/
theorem passes_of_filtered (disabled : slot.base.enabled = false) {before after : Mixer}
    {route : Route} {state : Biquad.State} (calm : state.Calm)
    (routed : (slot.command offset false channel place).route? before = some route)
    (filtered : (slot.command offset false channel place).Filtered route state before after) :
    Passes (slot.command offset false channel place) route state before after := by
  obtain ⟨next, begins⟩ := command_disabled disabled offset channel place
  obtain ⟨output, left, -⟩ := filtered
  rw [next, begins] at output left
  obtain ⟨echoes, spent⟩ := Biquad.feed_passThrough calm (before.arena.slice route.input)
  -- A route is as long as a frame, so that frames of two samples reach both echoes.
  have full : (before.arena.slice route.input).length = before.frame := by
    obtain ⟨rfl, within⟩ := BiquadCommand.route?_eq_some routed
    obtain ⟨input, -⟩ := within _ (List.mem_singleton_self _)
    simp [Route.between, before.arena.slice_buffer input, columns]
  refine ⟨output.trans echoes, ?_, fun silent => ?_, fun long => ?_⟩
  · rw [output, echoes]
    exact Biquad.drop_echoes [state.s0, state.s1] _
  · rw [output, Biquad.feed_silent silent]
  · rw [left, spent (full.symm ▸ long)]

end Slot

/-- A frame finds and leaves states that are kept. -/
theorem Holds.issue (holds : Holds (Kept idle) bench.mixer.states (filterPlaces bench.slot.states))
    (still : idle → bench.slot.base.enabled = false) (offset : Int16) :
    Holds (Kept idle) (bench.issue offset).1.mixer.states
        (filterPlaces (bench.issue offset).1.slot.states) ∧
      ∀ command ∈ (bench.issue offset).2,
        Keeps (Kept idle) (filterPlaces (bench.issue offset).1.slot.states) command := by
  -- A place that is new begins silent, and the others are as steady as before.
  obtain ⟨held, states, ends, claims, commands⟩ := bench.issue_eq offset
  rw [ends]
  refine ⟨holds.claims claims ⟨Biquad.calm_initial, fun _ => Biquad.silent_initial⟩, ?_⟩
  intro command among
  obtain ⟨channel, place, here, rfl⟩ := commands command among
  exact keeps_command here still

/-- Every event succeeds and leaves states that are kept, if a frame finds an idle slot disabled. -/
theorem Holds.apply (holds : Holds (Kept idle) bench.mixer.states (filterPlaces bench.slot.states))
    {event : Event} (still : idle → ∀ offset, event = .frame offset →
      bench.slot.base.enabled = false) :
    ∃ after, event.apply bench = .ok after ∧
      Holds (Kept idle) after.mixer.states (filterPlaces after.slot.states) := by
  cases event with
  | receive record version =>
    refine ⟨_, rfl, ?_⟩
    -- The filters' states stay, whether the record's parameters can be read or not.
    have stays : (bench.slot.receive record version).states = bench.slot.states := by
      simp only [BiquadSlot.receive]
      split <;> rfl
    rw [stays]
    exact holds
  | load arena => exact ⟨_, rfl, holds⟩
  | frame offset =>
    obtain ⟨issued, keeps⟩ := holds.issue (fun quiet => still quiet offset rfl) offset
    obtain ⟨mixer, report, processed, kept⟩ := issued.processFrom keeps ⟨0, 0⟩
    refine ⟨⟨(bench.issue offset).1.slot.advance, mixer⟩, ?_, kept⟩
    simp only [Event.apply, Mixer.process, processed, ok_bind, pure_eq_ok]

/-- A run is carried on by one event more. -/
theorem runs_append (mixer : Mixer) (events : List Event) (event : Event) :
    runs mixer (events ++ [event]) = (do event.apply (← runs mixer events)) := by
  simp only [runs, List.foldlM_append, List.foldlM_cons, List.foldlM_nil, bind_pure]

/-- A run that is idle was so before its last event. -/
theorem Idle.front {events : List Event} {event : Event}
    (idle : Idle mixer (events ++ [event])) : Idle mixer events := by
  intro front offset back bench parts ran
  exact idle front offset (back ++ [event]) bench (by simp [parts]) ran

/-- Every run succeeds and leaves states that are kept. -/
theorem runs_holds (mixer : Mixer) (events : List Event) (quiet : idle → Idle mixer events) :
    ∃ bench, runs mixer events = .ok bench ∧
      Holds (Kept idle) bench.mixer.states (filterPlaces bench.slot.states) := by
  -- The induction is on the last event, since it depends on the run before whether a slot is idle.
  induction events using List.reverseRecOn with
  | nil => exact ⟨⟨.new, mixer⟩, rfl, by simp [Holds, filterPlaces, BiquadSlot.new]⟩
  | append_singleton events event ih =>
    obtain ⟨bench, ran, holds⟩ := ih fun still => (quiet still).front
    obtain ⟨after, applied, kept⟩ := holds.apply fun still offset (last : event = _) =>
      quiet still events offset [] bench (by rw [last]) ran
    exact ⟨after, by rw [runs_append, ran, ok_bind, applied], kept⟩

/--
Every run succeeds. When the slot is then not enabled, each of its commands that can run once those
before it have run adds to its input what is left in its state, and nothing else. Only a frame in which
the slot was enabled leaves anything there.
-/
theorem runs_bypass (mixer : Mixer) (events : List Event) :
    ∃ bench, runs mixer events = .ok bench ∧ (bench.slot.base.enabled = false →
      ∀ (offset : Int16) (front : List BiquadCommand) (command : BiquadCommand)
        (back : List BiquadCommand), (bench.issue offset).2 = front ++ command :: back →
        ∃ middle report, (bench.issue offset).1.mixer.process (front.map .biquad) =
            .ok (middle, report) ∧
          (command.verify middle = true → ∃ route state after,
            command.route? middle = some route ∧ command.state? middle = some state ∧
            command.process middle = .ok after ∧ Passes command route state middle after ∧
            (Idle mixer events → state.Silent))) := by
  obtain ⟨bench, ran, holds⟩ := runs_holds mixer events id
  refine ⟨bench, ran, fun disabled offset front command back parts => ?_⟩
  obtain ⟨issued, keeps⟩ := holds.issue (fun _ => disabled) offset
  rw [parts] at keeps
  obtain ⟨middle, report, processed, kept⟩ :=
    issued.processFrom (fun other here => keeps other (List.mem_append_left _ here)) ⟨0, 0⟩
  refine ⟨middle, report, processed, fun verified => ?_⟩
  obtain ⟨route, state, after, routed, live, good, runs, filtered⟩ :=
    kept.process (keeps command (by simp)) verified
  -- The commands before this one may have changed its input, but it is still the slot's command.
  obtain ⟨held, states, -, -, commands⟩ := bench.issue_eq offset
  obtain ⟨channel, place, -, rfl⟩ := commands command (by rw [parts]; simp)
  exact ⟨route, state, after, routed, live, runs,
    passes_of_filtered disabled good.1 routed filtered, good.2⟩

/-- A command that delays by a sample leaves one behind, which is heard in the frame after it. -/
theorem runs_bypass_leaves :
    let mixer : Mixer := ⟨⟨2, 2, #[0, 0, 0, 0]⟩, 2, 48000, .empty⟩
    let parameters : BiquadParameters :=
      ⟨#v[0, -1, -1, -1, -1, -1], #v[1, -1, -1, -1, -1, -1], ⟨#v[0, 16384, 0], #v[0, 0]⟩, 1, 0⟩
    let record : Record := .create .biquad 0 parameters.encode
    let bench : Bench :=
      ⟨⟨⟨0, 0, false, .enabled, 0⟩, parameters, #v[some 0, none, none, none, none, none]⟩,
        ⟨⟨2, 2, #[5, 6, 0, 0]⟩, 2, 48000, ⟨#[⟨1638400, 0, 0, 0⟩], #[], #[]⟩⟩⟩
    let command : BiquadCommand := ⟨0, 1, .passThrough, .zero, some 0, false, false, false⟩
    let route : Route := ⟨⟨0, 2⟩, ⟨2, 4⟩⟩
    let after : Mixer := ⟨⟨2, 2, #[5, 6, 105, 6]⟩, 2, 48000, ⟨#[⟨0, 0, 0, 0⟩], #[], #[]⟩⟩
    runs mixer [.receive record .second, .load ⟨2, 2, #[0, 100, 0, 0]⟩, .frame 0,
        .receive { record with enabled := 0 } .second, .load ⟨2, 2, #[5, 6, 0, 0]⟩] = .ok bench ∧
      bench.slot.base.enabled = false ∧ bench.issue 0 = (bench, [command]) ∧
      command.verify bench.mixer = true ∧ command.route? bench.mixer = some route ∧
      command.process bench.mixer = .ok after ∧
      after.arena.slice route.output ≠ bench.mixer.arena.slice route.input := by
  decide +kernel

/-- One frame later nothing is left, and the input passes unchanged. -/
theorem runs_bypass_spent :
    let mixer : Mixer := ⟨⟨2, 2, #[0, 0, 0, 0]⟩, 2, 48000, .empty⟩
    let parameters : BiquadParameters :=
      ⟨#v[0, -1, -1, -1, -1, -1], #v[1, -1, -1, -1, -1, -1], ⟨#v[0, 16384, 0], #v[0, 0]⟩, 1, 0⟩
    let record : Record := .create .biquad 0 parameters.encode
    let events : List Event := [.receive record .second, .load ⟨2, 2, #[0, 100, 0, 0]⟩, .frame 0,
      .receive { record with enabled := 0 } .second, .load ⟨2, 2, #[5, 6, 0, 0]⟩, .frame 0,
      .load ⟨2, 2, #[7, 8, 0, 0]⟩]
    let command : BiquadCommand := ⟨0, 1, .passThrough, .zero, some 0, false, false, false⟩
    ∃ bench, runs mixer events = .ok bench ∧ bench.slot.base.enabled = false ∧
      bench.issue 0 = (bench, [command]) ∧ command.verify bench.mixer = true ∧
      ∃ route after, command.route? bench.mixer = some route ∧
        command.process bench.mixer = .ok after ∧ after.arena.slice route.output = [7, 8] := by
  intro mixer parameters record events command
  let bench : Bench :=
    ⟨⟨⟨0, 0, false, .disabled, 0⟩, { parameters with phase := 2 },
        #v[some 0, none, none, none, none, none]⟩,
      ⟨⟨2, 2, #[7, 8, 0, 0]⟩, 2, 48000, ⟨#[⟨0, 0, 0, 0⟩], #[], #[]⟩⟩⟩
  have reached : runs mixer events = .ok bench := by decide +kernel
  have issued : bench.issue 0 = (bench, [command]) := by decide +kernel
  have verified : command.verify bench.mixer = true := by decide +kernel
  have found : command.state? bench.mixer = some .initial := by decide +kernel
  -- The second disabled frame starts from the silence that the first one has left.
  obtain ⟨bench', ran, bypass⟩ := runs_bypass mixer events
  obtain rfl := Except.ok.inj (reached.symm.trans ran)
  obtain ⟨middle, report, started, passes⟩ := bypass rfl 0 [] command [] (by rw [issued]; rfl)
  rw [issued] at started
  obtain ⟨rfl, -⟩ := Prod.mk.inj (Except.ok.inj started)
  obtain ⟨route, state, after, routed, live, processed, passed, -⟩ := passes verified
  obtain rfl := Option.some.inj (found.symm.trans live)
  refine ⟨bench, reached, rfl, issued, verified, route, after, routed, processed, ?_⟩
  rw [passed.unchanged Biquad.silent_initial]
  obtain rfl := Option.some.inj (routed.symm.trans
    (show command.route? bench.mixer = some ⟨⟨0, 2⟩, ⟨2, 4⟩⟩ by decide +kernel))
  decide +kernel

end Bench

end Mixdown.Effect
