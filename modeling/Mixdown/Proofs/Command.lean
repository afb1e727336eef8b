import Mathlib.Data.List.Forall2
import Mixdown.Command
import Mixdown.Proofs.Biquad
import Mixdown.Proofs.Compressor
import Mixdown.Proofs.Limiter

/-! Commands with live states and room in the arena run as steps on columns, one behind the other. -/

namespace Mixdown

/-- What one command remembers. -/
inductive Memory where
  | biquad (state : Biquad.State)
  | limiter (state : Limiter.State)
  | compressor (state : Compressor.State)

/-- Where one command's memory is kept. -/
inductive Place where
  | biquad (index : Nat)
  | limiter (index : Nat)
  | compressor (index : Nat)
  deriving DecidableEq

/-- The memory at a place, if there is one. -/
def States.read (states : States) : Place → Option Memory
  | .biquad index => states.biquad[index]?.map .biquad
  | .limiter index => states.limiter[index]?.map .limiter
  | .compressor index => states.compressor[index]?.map .compressor

/-- The states with another memory at a place. -/
def States.write (states : States) : Place → Memory → States
  | .biquad index, .biquad state =>
    { states with biquad := states.biquad.setIfInBounds index state }
  | .limiter index, .limiter state =>
    { states with limiter := states.limiter.setIfInBounds index state }
  | .compressor index, .compressor state =>
    { states with compressor := states.compressor.setIfInBounds index state }
  | _, _ => states

/-- Writing one memory leaves all others. -/
theorem States.read_write_ne (states : States) {place other : Place} (apart : other ≠ place)
    (memory : Memory) : (states.write place memory).read other = states.read other := by
  -- Places in different tables are apart, and so are different places of one table.
  cases place <;> cases memory <;> cases other <;> try rfl
  all_goals
    next index state moment =>
      have different : index ≠ moment := fun same => apart (by rw [same])
      simp [read, write, different]

/-- Mixers have one shape when they differ in samples and states only, and not in how many. -/
structure Mixer.SameShape (after before : Mixer) : Prop where
  frame : after.frame = before.frame
  rate : after.rate = before.rate
  buffers : after.arena.buffers = before.arena.buffers
  frames : after.arena.frames = before.arena.frames
  size : after.arena.size = before.arena.size

namespace Mixer

/-- A mixer has its own shape. -/
theorem SameShape.refl (mixer : Mixer) : mixer.SameShape mixer := ⟨rfl, rfl, rfl, rfl, rfl⟩

/-- Shapes are passed on. -/
theorem SameShape.trans {last middle first : Mixer} (later : last.SameShape middle)
    (earlier : middle.SameShape first) : last.SameShape first :=
  ⟨later.frame.trans earlier.frame, later.rate.trans earlier.rate,
    later.buffers.trans earlier.buffers, later.frames.trans earlier.frames,
    later.size.trans earlier.size⟩

/-- The columns of a mixer's frame. -/
def columns (mixer : Mixer) : List Column := Mixdown.columns mixer.arena.samples mixer.frame

variable {mixer after : Mixer}

/-- A segment is that of a buffer inside the arena. -/
theorem segment?_eq_some {index : Int16} {segment : Segment}
    (found : mixer.segment? index = some segment) :
    segment = ⟨index.toInt.toNat * mixer.frame, index.toInt.toNat * mixer.frame + mixer.frame⟩ ∧
      index.toInt.toNat * mixer.frame + mixer.frame ≤ mixer.arena.size := by
  -- A segment exists only for an index that is not negative and ends inside the arena.
  simp only [segment?] at found
  split at found
  · simp at found
  · simp only [Arena.segment?] at found
    split at found
    · next inside => exact ⟨(Option.some.inj found).symm, inside.2.2⟩
    · simp at found

/-- Segments depend on the shape only. -/
theorem segment?_of_shape (shape : after.SameShape mixer) (index : Int16) :
    after.segment? index = mixer.segment? index := by
  simp only [segment?, Arena.segment?, shape.frame, shape.size]

/-- The ways of the first channels. -/
def waysOf (channels : Nat) (inputs outputs : Vector Int16 maxChannels) : List (Nat × Nat) :=
  ((inputs.toList.zip outputs.toList).take channels).map fun way =>
    (way.1.toInt.toNat, way.2.toInt.toNat)

/-- Routes are those between the buffers of the ways, all of which lie in the arena. -/
theorem routes?_eq_some {channels : Nat} {inputs outputs : Vector Int16 maxChannels}
    {routes : List Route} (found : mixer.routes? channels inputs outputs = some routes) :
    routes = (waysOf channels inputs outputs).map (Route.between mixer.frame) ∧
      Within mixer.arena.size mixer.frame (waysOf channels inputs outputs) := by
  simp only [routes?] at found
  rw [waysOf]
  generalize (inputs.toList.zip outputs.toList).take channels = ways at found
  induction ways generalizing routes with
  | nil =>
    obtain rfl := Option.some.inj found
    exact ⟨rfl, by simp [Within]⟩
  | cons way ways ih =>
    -- The routes exist only when every segment does, the first two and all others.
    rw [List.mapM_cons] at found
    obtain ⟨route, first, found⟩ := Option.bind_eq_some_iff.mp found
    obtain ⟨others, rest, found⟩ := Option.bind_eq_some_iff.mp found
    obtain ⟨input, source, first⟩ := Option.bind_eq_some_iff.mp first
    obtain ⟨output, target, first⟩ := Option.bind_eq_some_iff.mp first
    obtain ⟨rfl, within⟩ := segment?_eq_some source
    obtain ⟨rfl, withinToo⟩ := segment?_eq_some target
    obtain rfl := Option.some.inj first
    obtain rfl := Option.some.inj found
    obtain ⟨rfl, all⟩ := ih rest
    refine ⟨rfl, ?_⟩
    simp only [Within, List.map_cons, List.forall_mem_cons]
    exact ⟨⟨within, withinToo⟩, all⟩

/-- There are routes when every channel's buffers have segments. -/
theorem isSome_routes? {channels : Nat} {inputs outputs : Vector Int16 maxChannels} :
    (mixer.routes? channels inputs outputs).isSome ↔
      ∀ way ∈ (inputs.toList.zip outputs.toList).take channels,
        (mixer.segment? way.1).isSome ∧ (mixer.segment? way.2).isSome := by
  simp only [routes?]
  generalize (inputs.toList.zip outputs.toList).take channels = ways
  induction ways with
  | nil => simp
  | cons way ways ih =>
    rw [List.forall_mem_cons, ← ih, List.mapM_cons]
    -- Every way needs both of its segments, and the others must have all of theirs.
    cases mixer.segment? way.1 with
    | none => simp
    | some input =>
      cases mixer.segment? way.2 with
      | none => simp
      | some output => simp [Option.isSome_bind, Option.any_true]

/-- Routes depend on the shape only. -/
theorem routes?_of_shape (shape : after.SameShape mixer) (channels : Nat)
    (inputs outputs : Vector Int16 maxChannels) :
    after.routes? channels inputs outputs = mixer.routes? channels inputs outputs := by
  simp only [routes?, segment?_of_shape shape]

end Mixer

/-- Copying along ways rewrites every column without a change. -/
theorem Arena.copyRoutes_eq (arena : Arena) {frame : Nat} {ways : List (Nat × Nat)}
    (within : Within arena.size frame ways) :
    ∃ samples, arena.copyRoutes (ways.map (Route.between frame)) = .ok { arena with samples } ∧
      samples.size = arena.size ∧
      Mixdown.columns samples frame =
        (Mixdown.columns arena.samples frame).map (rewrite id ways) := by
  induction ways generalizing arena with
  | nil => exact ⟨arena.samples, rfl, rfl, (List.map_id _).symm⟩
  | cons way ways ih =>
    -- Every copy reads what the copies before it have left, as rewriting does.
    obtain ⟨input, output⟩ := within way (by simp)
    have source := slice_buffer arena input
    obtain ⟨copied, first, size, cells⟩ := splice_buffer arena output
      (arena.slice ⟨way.1 * frame, way.1 * frame + frame⟩) (by simp [source, columns])
    obtain ⟨samples, run, sizes, all⟩ := ih { arena with samples := copied } (by
      intro other here
      rw [show Arena.size { arena with samples := copied } = arena.size from size]
      exact within other (List.mem_cons_of_mem way here))
    refine ⟨samples, ?_, sizes.trans size, ?_⟩
    · simp only [List.map_cons, Route.between, copyRoutes, first, ok_bind]
      exact run
    · rw [all]
      simp only
      rw [cells, source, List.zipWith_map_right, List.zipWith_self, List.map_map]
      rfl

namespace BiquadCommand

variable (command : BiquadCommand)

/-- The buffer that the filter reads. -/
def source : Nat := command.input.toInt.toNat

/-- The buffer that the filter writes. -/
def target : Nat := (if command.output < 0 then command.input else command.output).toInt.toNat

/-- What the filter does with a sample. -/
def next : Biquad.State → Int32 → Biquad.State × Int32 :=
  match command.double, command.floatTaken with
  | false, _ => Biquad.integerNext command.coefficients
  | true, false =>
    Biquad.floatStep (command.coefficients.b.map Biquad.widen)
      (command.coefficients.a.map Biquad.widen)
  | true, true =>
    Biquad.floatStep (command.floatCoefficients.numerator.map .ofSingle)
      (command.floatCoefficients.denominator.map .ofSingle)

/-- What the filter does with a column. -/
def tick (state : Biquad.State) (column : Column) : Biquad.State × Column :=
  ((command.next state (column command.source)).1,
    Function.update column command.target (command.next state (column command.source)).2)

/-- The state that a frame begins with. -/
def begin (held : Biquad.State) : Biquad.State :=
  let state := if command.reset then .initial else held
  if command.double then state.trim else state

/-- A state that the filter can go on from, and does leave behind. -/
def Settled (state : Biquad.State) : Prop :=
  if command.double then state.trim = state else state.Calm

/-- From a settled state the filter never faults, and it leaves a settled one. -/
theorem filter_eq (held : Biquad.State) (settled : command.Settled (command.begin held))
    (samples : List Int32) :
    command.filter (if command.reset then .initial else held) samples =
        .ok (feed command.next (command.begin held) samples) ∧
      command.Settled (feed command.next (command.begin held) samples).1 := by
  obtain ⟨input, output, coefficients, floats, state, reset, double, floatTaken⟩ := command
  cases double with
  | false =>
    -- Integer filters need a calm state, for their sums fault beyond the word.
    simp only [Settled, begin, Bool.false_eq_true, if_false] at settled ⊢
    exact Biquad.applyInteger_eq settled coefficients samples
  | true =>
    -- Doubles never fault, whichever coefficients they are made from.
    simp only [Settled, begin, if_true]
    cases floatTaken with
    | false => exact Biquad.applyDouble_eq _ _ _ samples
    | true => exact Biquad.applyDouble_eq _ _ _ samples

/-- A route leads from the source to the target inside the arena. -/
theorem route?_eq_some {command : BiquadCommand} {mixer : Mixer} {route : Route}
    (found : command.route? mixer = some route) :
    route = Route.between mixer.frame (command.source, command.target) ∧
      Within mixer.arena.size mixer.frame [(command.source, command.target)] := by
  -- Negative inputs and empty frames have no route.
  simp only [route?] at found
  split at found
  · simp at found
  · obtain ⟨input, reads, found⟩ := Option.bind_eq_some_iff.mp found
    obtain ⟨output, writes, found⟩ := Option.bind_eq_some_iff.mp found
    obtain ⟨rfl, within⟩ := Mixer.segment?_eq_some reads
    obtain ⟨rfl, withinToo⟩ := Mixer.segment?_eq_some writes
    obtain rfl := Option.some.inj found
    exact ⟨rfl, by simpa [Within] using ⟨within, withinToo⟩⟩

end BiquadCommand

/-- The ways of a limiter's channels. -/
def LimiterCommand.ways (command : LimiterCommand) : List (Nat × Nat) :=
  Mixer.waysOf command.channels command.inputs command.outputs

/-- The ways of a compressor's channels. -/
def CompressorCommand.ways (command : CompressorCommand) : List (Nat × Nat) :=
  Mixer.waysOf command.channels command.inputs command.outputs

/-- The state that a compressor's frame begins with; a compressor that only copies has no say. -/
def CompressorCommand.begin (command : CompressorCommand) (held : Compressor.State) :
    Compressor.State :=
  if command.enabled then
    Compressor.restart command.parameters command.ways (command.prepare held)
  else held

namespace Command

/-- The place of a command's memory, if it has one. -/
def place? : Command → Option Place
  | .biquad command => command.state.map .biquad
  | .limiter command => command.state.map .limiter
  | .compressor command => command.state.map .compressor

/-- What a command does with a column. -/
def device (rate : Nat) : Command → Memory → Column → Memory × Column
  | .biquad command, .biquad state, column =>
    let (state, column) := command.tick state column
    (.biquad state, column)
  | .limiter command, .limiter state, column =>
    if command.enabled then
      let (state, column) :=
        Limiter.tick (command.parameters.settings rate) command.ways state column
      (.limiter state, column)
    else (.limiter state, rewrite id command.ways column)
  | .compressor command, .compressor state, column =>
    if command.enabled then
      let (state, column) := Compressor.pass command.parameters command.ways state column
      (.compressor state, column)
    else (.compressor state, rewrite id command.ways column)
  | _, memory, column => (memory, column)

/-- The memory that a command's frame begins with. -/
def begin : Command → Memory → Memory
  | .biquad command, .biquad held => .biquad (command.begin held)
  | .compressor command, .compressor held => .compressor (command.begin held)
  | _, held => held

/-- A memory that a command can go on from, and does leave behind. -/
def Settled : Command → Memory → Prop
  | .biquad command, .biquad state => command.Settled state
  | _, _ => True

/-- All buffers of a command lie in the arena. -/
def Routed (mixer : Mixer) : Command → Prop
  | .biquad command => (command.route? mixer).isSome
  | .limiter command =>
    (mixer.routes? command.channels command.inputs command.outputs).isSome
  | .compressor command =>
    (mixer.routes? command.channels command.inputs command.outputs).isSome

/-- Whether a command is routed depends on the shape only. -/
theorem routed_of_shape {after mixer : Mixer} (shape : after.SameShape mixer) {command : Command}
    (routed : command.Routed mixer) : command.Routed after := by
  -- Buffers are found by the shape alone, and so are the routes that lead between them.
  cases command with
  | biquad command =>
    simpa only [Routed, BiquadCommand.route?, Mixer.segment?_of_shape shape, shape.frame] using
      routed
  | limiter command => simpa only [Routed, Mixer.routes?_of_shape shape] using routed
  | compressor command => simpa only [Routed, Mixer.routes?_of_shape shape] using routed

/-- What running a command leaves: its columns and its memory are fed, and all else is kept. -/
structure Ran (command : Command) (held : Memory) (place : Place) (mixer after : Mixer) : Prop where
  shape : after.SameShape mixer
  columns : after.columns =
    (feed (command.device mixer.rate) (command.begin held) mixer.columns).2
  memory : after.states.read place =
    some (feed (command.device mixer.rate) (command.begin held) mixer.columns).1
  settled : command.Settled
    (feed (command.device mixer.rate) (command.begin held) mixer.columns).1
  others : ∀ other, other ≠ place → after.states.read other = mixer.states.read other

variable {mixer : Mixer} {held : Memory} {place : Place}

/-- A command has run when its columns and its memory are what its device makes of them. -/
theorem Ran.of_fed {command : Command} {memory : Memory} {samples : Array Int32} {states : States}
    (fed : feed (command.device mixer.rate) (command.begin held) mixer.columns =
      (memory, Mixdown.columns samples mixer.frame))
    (size : samples.size = mixer.arena.size) (stored : states.read place = some memory)
    (settled : command.Settled memory)
    (others : ∀ other, other ≠ place → states.read other = mixer.states.read other) :
    command.Ran held place mixer
      { mixer with arena := { mixer.arena with samples }, states } where
  shape := ⟨rfl, rfl, rfl, rfl, size⟩
  columns := by rw [fed]; rfl
  memory := by rw [fed]; exact stored
  settled := by rw [fed]; exact settled
  others

/-- A command that copies along ways has run when all columns are rewritten without a change. -/
theorem Ran.of_copied {command : Command} {ways : List (Nat × Nat)} {samples : Array Int32}
    (begins : command.begin held = held)
    (copies : ∀ column, command.device mixer.rate held column = (held, rewrite id ways column))
    (cells : Mixdown.columns samples mixer.frame = mixer.columns.map (rewrite id ways))
    (size : samples.size = mixer.arena.size) (live : mixer.states.read place = some held)
    (settled : command.Settled held) :
    command.Ran held place mixer { mixer with arena := { mixer.arena with samples } } := by
  refine Ran.of_fed ?_ size live settled fun _ _ => rfl
  rw [begins, feed_still copies, cells]

/-- A filter's device feeds one buffer of the columns and writes the outputs back to another. -/
theorem feed_biquad (command : BiquadCommand) (rate : Nat) (state : Biquad.State)
    (columns : List Column) :
    feed ((biquad command).device rate) (.biquad state) columns =
      (.biquad (feed command.next state (columns.map fun column => column command.source)).1,
        List.zipWith (fun column output => Function.update column command.target output) columns
          (feed command.next state (columns.map fun column => column command.source)).2) := by
  have parts := feed_part command.next (fun column : Column => column command.source)
    (fun column output => Function.update column command.target output) state columns
  rw [feed_lift Memory.biquad command.tick fun _ _ => rfl,
    show feed command.tick state columns = _ from parts]

/-- A biquad filter with a live state and room runs. -/
theorem process_biquad {command : BiquadCommand} (placed : (biquad command).place? = some place)
    (live : mixer.states.read place = some held) (routed : (biquad command).Routed mixer)
    (settled : (biquad command).Settled ((biquad command).begin held)) :
    ∃ after, command.process mixer = .ok after ∧ (biquad command).Ran held place mixer after := by
  obtain ⟨index, handle, rfl⟩ := Option.map_eq_some_iff.mp placed
  obtain ⟨state, found, rfl⟩ := Option.map_eq_some_iff.mp live
  obtain ⟨route, routes⟩ := Option.isSome_iff_exists.mp routed
  obtain ⟨rfl, within⟩ := BiquadCommand.route?_eq_some routes
  obtain ⟨input, output⟩ := within (command.source, command.target) (by simp)
  -- The input is taken out of its buffer, filtered, and put into the output's buffer whole.
  have source := mixer.arena.slice_buffer input
  obtain ⟨filtered, left⟩ := command.filter_eq state settled
    (mixer.columns.map fun column => column command.source)
  obtain ⟨samples, spliced, size, cells⟩ := mixer.arena.splice_buffer output
    (feed command.next (command.begin state)
      (mixer.columns.map fun column => column command.source)).2 (by simp [Mixer.columns, columns])
  have inside := (Array.getElem?_eq_some_iff.mp found).1
  have fed : feed ((biquad command).device mixer.rate) ((biquad command).begin (.biquad state))
      mixer.columns = (.biquad (feed command.next (command.begin state)
        (mixer.columns.map fun column => column command.source)).1,
        Mixdown.columns samples mixer.frame) := by
    rw [cells]
    exact feed_biquad command mixer.rate (command.begin state) mixer.columns
  refine ⟨{ mixer with
      arena := { mixer.arena with samples }
      states := mixer.states.write (.biquad index) (.biquad (feed command.next (command.begin state)
        (mixer.columns.map fun column => column command.source)).1) }, ?_,
    Ran.of_fed fed size ?_ left fun other apart => mixer.states.read_write_ne apart _⟩
  · simp only [BiquadCommand.process, handle, found, routes, Route.between, source]
    rw [show columns mixer.arena.samples mixer.frame = mixer.columns from rfl, filtered]
    simp only [ok_bind, spliced, pure_eq_ok]
    rfl
  · simp [States.read, States.write, inside]

/-- A limiter with a live state and room runs. -/
theorem process_limiter {command : LimiterCommand} (placed : (limiter command).place? = some place)
    (live : mixer.states.read place = some held) (routed : (limiter command).Routed mixer) :
    ∃ after, command.process mixer = .ok after ∧ (limiter command).Ran held place mixer after := by
  -- The place is that of the limiter's own state, which is live, and all its routes are there.
  obtain ⟨index, handle, rfl⟩ := Option.map_eq_some_iff.mp placed
  obtain ⟨state, found, rfl⟩ := Option.map_eq_some_iff.mp live
  obtain ⟨routes, reached⟩ := Option.isSome_iff_exists.mp routed
  obtain ⟨rfl, within⟩ := Mixer.routes?_eq_some reached
  have inside := (Array.getElem?_eq_some_iff.mp found).1
  by_cases enabled : command.enabled
  · -- The limiter's own tick is lifted to the memory that stands for its state.
    obtain ⟨samples, run, size, cells⟩ :=
      Limiter.apply_eq within command.parameters mixer.rate state
    have fed : feed ((limiter command).device mixer.rate) (.limiter state) mixer.columns =
        (.limiter (feed (Limiter.tick (command.parameters.settings mixer.rate) command.ways) state
          mixer.columns).1, Mixdown.columns samples mixer.frame) := by
      rw [feed_lift Memory.limiter (Limiter.tick (command.parameters.settings mixer.rate)
        command.ways) fun state column => by simp [device, enabled], cells]
      rfl
    -- Only the limiter's state is written beside the samples, so all other places read as before.
    refine ⟨{ mixer with
        arena := { mixer.arena with samples }
        states := mixer.states.write (.limiter index) (.limiter
          (feed (Limiter.tick (command.parameters.settings mixer.rate) command.ways) state
            mixer.columns).1) }, ?_,
      Ran.of_fed fed size ?_ trivial fun other apart => mixer.states.read_write_ne apart _⟩
    · simp only [LimiterCommand.process, reached, enabled, Bool.not_true, Bool.false_eq_true,
        if_false, handle, Option.bind_some, found, Option.map_some, run, ok_bind, pure_eq_ok]
      rfl
    · simp [States.read, States.write, inside]
  · -- A limiter that is not enabled still copies its inputs, and its state stays.
    obtain ⟨samples, run, size, cells⟩ := mixer.arena.copyRoutes_eq within
    have copies : ∀ column, (limiter command).device mixer.rate (.limiter state) column =
        (.limiter state, rewrite id command.ways column) :=
      fun column => by simp only [device, enabled, Bool.false_eq_true, if_false]
    refine ⟨{ mixer with arena := { mixer.arena with samples } }, ?_,
      Ran.of_copied rfl copies cells size live trivial⟩
    simp only [LimiterCommand.process, reached, enabled, Bool.not_false, if_true, run, ok_bind,
      pure_eq_ok]

/-- A compressor with a live state and room runs. -/
theorem process_compressor {command : CompressorCommand}
    (placed : (compressor command).place? = some place)
    (live : mixer.states.read place = some held) (routed : (compressor command).Routed mixer) :
    ∃ after, command.process mixer = .ok after ∧
      (compressor command).Ran held place mixer after := by
  -- The place is that of the compressor's own state, and it is not prepared before it is found.
  obtain ⟨index, handle, rfl⟩ := Option.map_eq_some_iff.mp placed
  obtain ⟨state, found, rfl⟩ := Option.map_eq_some_iff.mp live
  obtain ⟨routes, reached⟩ := Option.isSome_iff_exists.mp routed
  obtain ⟨rfl, within⟩ := Mixer.routes?_eq_some reached
  have inside := (Array.getElem?_eq_some_iff.mp found).1
  by_cases enabled : command.enabled
  · -- The frame begins with the prepared state, from which each column is one pass.
    obtain ⟨samples, run, size, cells⟩ :=
      Compressor.apply_eq within command.parameters (command.prepare state)
    have fed : feed ((compressor command).device mixer.rate)
        ((compressor command).begin (.compressor state)) mixer.columns =
        (.compressor (feed (Compressor.pass command.parameters command.ways)
          (Compressor.restart command.parameters command.ways (command.prepare state))
          mixer.columns).1, Mixdown.columns samples mixer.frame) := by
      simp only [begin, CompressorCommand.begin, enabled, if_true]
      rw [feed_lift Memory.compressor (Compressor.pass command.parameters command.ways)
        fun state column => by simp [device, enabled], cells]
      rfl
    -- Only the compressor's state is written beside the samples, so all other places read as
    -- before.
    refine ⟨{ mixer with
        arena := { mixer.arena with samples }
        states := mixer.states.write (.compressor index) (.compressor
          (feed (Compressor.pass command.parameters command.ways)
            (Compressor.restart command.parameters command.ways (command.prepare state))
            mixer.columns).1) }, ?_,
      Ran.of_fed fed size ?_ trivial fun other apart => mixer.states.read_write_ne apart _⟩
    · simp only [CompressorCommand.process, reached, enabled, Bool.not_true, Bool.false_eq_true,
        if_false, handle, Option.bind_some, found, Option.map_some, run, ok_bind, pure_eq_ok]
      rfl
    · simp [States.read, States.write, inside]
  · -- One that only copies does not even prepare its state.
    obtain ⟨samples, run, size, cells⟩ := mixer.arena.copyRoutes_eq within
    have begins : (compressor command).begin (.compressor state) = .compressor state := by
      simp only [begin, CompressorCommand.begin, enabled, Bool.false_eq_true, if_false]
    have copies : ∀ column, (compressor command).device mixer.rate (.compressor state) column =
        (.compressor state, rewrite id command.ways column) :=
      fun column => by simp only [device, enabled, Bool.false_eq_true, if_false]
    refine ⟨{ mixer with arena := { mixer.arena with samples } }, ?_,
      Ran.of_copied begins copies cells size live trivial⟩
    simp only [CompressorCommand.process, reached, enabled, Bool.not_false, if_true, run, ok_bind,
      pure_eq_ok]

/-- A command with a live state and room is run, not skipped, and never faults. -/
theorem process_eq {command : Command} (placed : command.place? = some place)
    (live : mixer.states.read place = some held) (routed : command.Routed mixer)
    (settled : command.Settled (command.begin held)) :
    command.verify mixer = true ∧
      ∃ after, command.process mixer = .ok after ∧ command.Ran held place mixer after := by
  cases command with
  | biquad command =>
    -- Filters alone are checked first, for the same state and the same room that running needs.
    refine ⟨?_, process_biquad placed live routed settled⟩
    obtain ⟨index, handle, rfl⟩ := Option.map_eq_some_iff.mp placed
    obtain ⟨state, found, rfl⟩ := Option.map_eq_some_iff.mp live
    simp only [verify, BiquadCommand.verify, handle, Option.bind_some, found, Option.isSome_some,
      Bool.true_and]
    exact routed
  | limiter command => exact ⟨rfl, process_limiter placed live routed⟩
  | compressor command => exact ⟨rfl, process_compressor placed live routed⟩

/-- A command finds its memory among the states, begins with the given one and can go on from it. -/
def Loads (states : States) (command : Command) (memory : Memory) : Prop :=
  ∃ place held, command.place? = some place ∧ states.read place = some held ∧
    command.begin held = memory ∧ command.Settled memory

/-- A command finds the given memory among the states, as it has left it. -/
def Leaves (states : States) (command : Command) (memory : Memory) : Prop :=
  ∃ place, command.place? = some place ∧ states.read place = some memory ∧ command.Settled memory

end Command

namespace BiquadCommand

variable {command : BiquadCommand} {before after : Mixer} {held : Biquad.State} {route : Route}

/-- The state that a filter finds, if it has one. -/
def state? (command : BiquadCommand) (mixer : Mixer) : Option Biquad.State :=
  command.state.bind (mixer.states.biquad[·]?)

/-- A filter finds its state at its place. -/
theorem state?_eq_some {place : Place} (placed : (Command.biquad command).place? = some place) :
    command.state? before = some held ↔ before.states.read place = some (.biquad held) := by
  obtain ⟨handle, here, rfl⟩ := Option.map_eq_some_iff.mp placed
  simp [state?, States.read, here]

/-- A filter can run when it has a state and a route. -/
theorem verify_eq_true : command.verify before = true ↔
    (∃ held, command.state? before = some held) ∧ ∃ route, command.route? before = some route := by
  simp [verify, state?, Option.isSome_iff_exists]

/-- In integer arithmetic a filter goes on from calm states. -/
theorem settled_iff_calm (single : command.double = false) (state : Biquad.State) :
    command.Settled state ↔ state.Calm := by
  rw [Settled, if_neg (by simp [single])]

/-- In integer arithmetic a filter can go on from where it begins if it resets or finds calm. -/
theorem settled_begin (single : command.double = false)
    (calm : command.reset = false → held.Calm) : command.Settled (command.begin held) := by
  simp only [settled_iff_calm single, begin, single, Bool.false_eq_true, if_false]
  cases reset : command.reset with
  | true => exact Biquad.calm_initial
  | false => exact calm reset

/-- What a filter leaves: its output and its state are fed, and all else is kept. -/
structure Filtered (command : BiquadCommand) (route : Route) (held : Biquad.State)
    (before after : Mixer) : Prop where
  output : after.arena.slice route.output =
    (feed command.next (command.begin held) (before.arena.slice route.input)).2
  state : command.state? after =
    some (feed command.next (command.begin held) (before.arena.slice route.input)).1
  others : ∀ place, (Command.biquad command).place? ≠ some place →
    after.states.read place = before.states.read place

/-- A filter that can run and go on from its state filters the samples of its route. -/
theorem process_filtered (live : command.state? before = some held)
    (routed : command.route? before = some route)
    (settled : command.Settled (command.begin held)) :
    ∃ after, command.process before = .ok after ∧ command.Filtered route held before after := by
  obtain ⟨handle, here, -⟩ := Option.bind_eq_some_iff.mp live
  have placed : (Command.biquad command).place? = some (.biquad handle) := by
    simp [Command.place?, here]
  obtain ⟨after, processed, ran⟩ := Command.process_biquad placed
    ((state?_eq_some placed).mp live) (Option.isSome_of_eq_some routed) settled
  obtain ⟨rfl, within⟩ := route?_eq_some routed
  obtain ⟨input, output⟩ := within (command.source, command.target) (by simp)
  -- In columns the filter reads one buffer and writes one.
  have source : before.columns.map (fun column => column command.source) =
      before.arena.slice ⟨command.source * before.frame,
        command.source * before.frame + before.frame⟩ := (before.arena.slice_buffer input).symm
  have target : after.arena.slice ⟨command.target * before.frame,
      command.target * before.frame + before.frame⟩ =
        after.columns.map fun column => column command.target := by
    rw [← ran.shape.frame, ← ran.shape.size] at output
    rw [← ran.shape.frame]
    exact after.arena.slice_buffer output
  have columns := ran.columns
  have memory := ran.memory
  rw [show (Command.biquad command).begin (.biquad held) = .biquad (command.begin held) from rfl,
    Command.feed_biquad, source] at columns memory
  refine ⟨after, processed, ?_, (state?_eq_some placed).mpr memory,
    fun place apart => ran.others place fun same => apart (by rw [same, placed])⟩
  rw [Route.between, target, columns]
  refine List.ext_getElem (by simp [← source]) ?_
  simp

end BiquadCommand

namespace Mixer

/-- Commands with memories of their own all run, one behind the other in every column. -/
theorem processFrom_eq {mixer : Mixer} {commands : List Command} {memories : List Memory}
    (loaded : List.Forall₂ (Command.Loads mixer.states) commands memories)
    (distinct : (commands.map Command.place?).Nodup)
    (routed : ∀ command ∈ commands, command.Routed mixer) (report : Report) :
    ∃ after, mixer.processFrom report commands =
        .ok (after, { report with processed := report.processed + commands.length }) ∧
      after.SameShape mixer ∧
      after.columns = (feed (series (commands.map (Command.device mixer.rate))) memories
        mixer.columns).2 ∧
      List.Forall₂ (Command.Leaves after.states) commands
        (feed (series (commands.map (Command.device mixer.rate))) memories mixer.columns).1 ∧
      ∀ place, some place ∉ commands.map Command.place? →
        after.states.read place = mixer.states.read place := by
  -- A command leaves the memories of all others alone, so that they may wait for their turn.
  induction commands generalizing mixer memories report with
  | nil =>
    obtain rfl := List.forall₂_nil_left_iff.mp loaded
    rw [List.map_nil, feed_series_nil]
    exact ⟨mixer, rfl, .refl mixer, rfl, .nil, fun _ _ => rfl⟩
  | cons command commands ih =>
    obtain ⟨memory, others, ⟨place, held, placed, live, rfl, settled⟩, later, rfl⟩ :=
      List.forall₂_cons_left_iff.mp loaded
    obtain ⟨verified, middle, run, ran⟩ :=
      Command.process_eq placed live (routed command (by simp)) settled
    obtain ⟨fresh, distinct⟩ := List.nodup_cons.mp distinct
    rw [placed] at fresh
    have elsewhere : ∀ other ∈ commands, other.place? ≠ some place :=
      fun other here same => fresh (List.mem_map.mpr ⟨other, here, same⟩)
    -- What the others load has not changed, since the first command has a place of its own.
    have still : List.Forall₂ (Command.Loads middle.states) commands others := by
      refine ((List.forall₂_and_left _ _).mpr ⟨elsewhere, later⟩).imp ?_
      rintro other memory ⟨away, spot, held, placed, live, begins, settled⟩
      refine ⟨spot, held, placed, ?_, begins, settled⟩
      rw [ran.others spot fun same => away (by rw [placed, same])]
      exact live
    -- The induction needs what is still loaded, places that are distinct and routes of the same
    -- shape.
    obtain ⟨after, runs, shape, columns, left, kept⟩ := ih still distinct
      (fun other here => Command.routed_of_shape ran.shape (routed other (by simp [here])))
      { report with processed := report.processed + 1 }
    refine ⟨after, ?_, shape.trans ran.shape, ?_, ?_, ?_⟩
    · simp only [processFrom, verified, if_true, run, ok_bind, runs, List.length_cons]
      rw [Nat.add_assoc, Nat.add_comm 1]
    · rw [List.map_cons, feed_series_cons, columns, ran.columns, ran.shape.rate]
    · -- The others pass over the place of the first command, so it keeps what it has left.
      rw [List.map_cons, feed_series_cons]
      rw [ran.columns, ran.shape.rate] at left
      refine .cons ⟨place, placed, ?_, ran.settled⟩ left
      rw [kept place fresh]
      exact ran.memory
    · intro other absent
      obtain ⟨apart, absent⟩ := not_or.mp (mt List.mem_cons.mpr absent)
      rw [kept other absent]
      exact ran.others other fun same => apart (by rw [placed, same])

end Mixer

end Mixdown
