import Mixdown.Proofs.Locality
import Mixdown.Proofs.Overflow

/-! Commands that write nothing of what the other reads or writes may run in either order. -/

namespace Mixdown

/-- A position lies in a segment. -/
def Segment.Has (segment : Segment) (position : Nat) : Prop :=
  segment.start ≤ position ∧ position < segment.stop

/-- States that hold the same memory at every place are the same. -/
theorem States.eq_of_read {left right : States}
    (same : ∀ place, left.read place = right.read place) : left = right := by
  -- Each table is read in full by its own kind of places.
  obtain ⟨biquads, limiters, compressors⟩ := left
  obtain ⟨otherBiquads, otherLimiters, otherCompressors⟩ := right
  have first : biquads = otherBiquads := Array.ext_getElem? fun index =>
    Option.map_injective (fun _ _ => Memory.biquad.inj) (same (.biquad index))
  have second : limiters = otherLimiters := Array.ext_getElem? fun index =>
    Option.map_injective (fun _ _ => Memory.limiter.inj) (same (.limiter index))
  have third : compressors = otherCompressors := Array.ext_getElem? fun index =>
    Option.map_injective (fun _ _ => Memory.compressor.inj) (same (.compressor index))
  rw [first, second, third]

namespace Mixer

variable {mixer : Mixer}

/-- The segments of a mixer are apart, so that two which share a position are one. -/
theorem segment_unique {index other : Int16} {left right : Segment}
    (first : mixer.segment? index = some left) (second : mixer.segment? other = some right)
    {position : Nat} (here : left.Has position) (there : right.Has position) : left = right := by
  obtain ⟨rfl, -⟩ := segment?_eq_some first
  obtain ⟨rfl, -⟩ := segment?_eq_some second
  simp only [Segment.Has] at here there
  -- The position counts from the start of either segment, so the buffers have one number.
  obtain ⟨offset, rfl⟩ := Nat.exists_eq_add_of_le here.1
  obtain ⟨moment, equal⟩ := Nat.exists_eq_add_of_le there.1
  rw [(position_inj (by omega) (by omega) equal).1]

/-- Every route leads from the segment of an active input to the segment of an active output. -/
theorem exists_of_routes? {channels : Nat} {inputs outputs : Vector Int16 maxChannels}
    {routes : List Route} (found : mixer.routes? channels inputs outputs = some routes)
    {route : Route} (member : route ∈ routes) :
    (∃ index ∈ inputs.toList.take channels, mixer.segment? index = some route.input) ∧
      ∃ index ∈ outputs.toList.take channels, mixer.segment? index = some route.output := by
  simp only [routes?, List.zip, List.take_zipWith] at found
  generalize inputs.toList.take channels = inputs at found ⊢
  generalize outputs.toList.take channels = outputs at found ⊢
  -- One channel after the other is routed, for as long as there are both an input and an output.
  induction inputs generalizing outputs routes with
  | nil =>
    obtain rfl := Option.some.inj found
    cases member
  | cons input inputs ih =>
    cases outputs with
    | nil =>
      obtain rfl := Option.some.inj found
      cases member
    | cons output outputs =>
      rw [List.zipWith_cons_cons, List.mapM_cons] at found
      obtain ⟨own, first, found⟩ := Option.bind_eq_some_iff.mp found
      obtain ⟨others, rest, found⟩ := Option.bind_eq_some_iff.mp found
      obtain ⟨source, reads, first⟩ := Option.bind_eq_some_iff.mp first
      obtain ⟨target, writes, first⟩ := Option.bind_eq_some_iff.mp first
      obtain rfl := Option.some.inj first
      obtain rfl := Option.some.inj found
      rcases List.mem_cons.mp member with rfl | member
      · exact ⟨⟨input, by simp, reads⟩, output, by simp, writes⟩
      · obtain ⟨⟨index, here, reads⟩, other, there, writes⟩ := ih member outputs rest
        exact ⟨⟨index, List.mem_cons_of_mem _ here, reads⟩, other, List.mem_cons_of_mem _ there,
          writes⟩

/-- Mixers of one shape are the same when their samples and their states are. -/
theorem eq_of_shape {left right : Mixer} (shape : left.SameShape right)
    (samples : left.arena.samples = right.arena.samples) (states : left.states = right.states) :
    left = right := by
  -- A mixer is its shape with the samples and the states.
  obtain ⟨⟨buffers, frames, cells⟩, frame, rate, memories⟩ := left
  obtain ⟨⟨otherBuffers, otherFrames, otherCells⟩, otherFrame, otherRate, otherMemories⟩ := right
  obtain ⟨rfl, rfl, rfl, rfl, -⟩ := shape
  simp only at samples states
  rw [samples, states]

/--
Two mixers are the same when both differ from a third in one footprint, and from a fourth in
another, and the two footprints have nothing in common.
-/
theorem eq_of_footprints {writes others : Nat → Prop} {names keeps : Place → Prop}
    {third fourth left right : Mixer} (ours : Footprint writes names third left)
    (same : Footprint writes names third right) (theirs : Footprint others keeps fourth left)
    (too : Footprint others keeps fourth right)
    (apart : ∀ position, writes position → ¬others position)
    (dead : ∀ place, names place → keeps place → third.states.read place = none) :
    left = right := by
  have shape : left.SameShape right :=
    ⟨ours.shape.frame.trans same.shape.frame.symm, ours.shape.rate.trans same.shape.rate.symm,
      ours.shape.buffers.trans same.shape.buffers.symm,
      ours.shape.frames.trans same.shape.frames.symm, ours.shape.size.trans same.shape.size.symm⟩
  refine eq_of_shape shape (Array.ext_getElem? fun position => ?_)
    (States.eq_of_read fun place => ?_)
  · by_cases inside : writes position
    · -- What lies in the first footprint does not lie in the second.
      have away := apart position inside
      rw [theirs.samples position away, too.samples position away]
    · rw [ours.samples position inside, same.samples position inside]
  · by_cases named : names place
    · by_cases kept : keeps place
      · -- A place in both footprints has no memory, and none is ever added.
        have absent := dead place named kept
        rw [(ours.sizes.read_eq_none place).mpr absent, (same.sizes.read_eq_none place).mpr absent]
      · rw [theirs.states place kept, too.states place kept]
    · rw [ours.states place named, same.states place named]

end Mixer

namespace Command

/-- The segments that a command reads, those of its active channels' inputs. -/
def inputs (mixer : Mixer) (command : Command) : List Segment :=
  command.sources.filterMap mixer.segment?

/-- The segments that a command writes, those of its active channels' outputs. -/
def outputs (mixer : Mixer) (command : Command) : List Segment :=
  command.targets.filterMap mixer.segment?

/-- A position lies in a segment that the command writes. -/
def Changes (mixer : Mixer) (command : Command) (position : Nat) : Prop :=
  ∃ segment ∈ command.outputs mixer, segment.Has position

/--
Commands are independent when neither writes a segment that the other reads or writes, and there is
no memory that both of them keep.
-/
structure Independent (mixer : Mixer) (first second : Command) : Prop where
  forth : ∀ segment ∈ first.outputs mixer, segment ∉ second.inputs mixer ++ second.outputs mixer
  back : ∀ segment ∈ second.outputs mixer, segment ∉ first.inputs mixer ++ first.outputs mixer
  places : ∀ place, first.Keeps place → second.Keeps place → mixer.states.read place = none

variable {mixer middle after : Mixer} {command first second : Command}

/-- Independence goes both ways. -/
theorem Independent.symm (independent : first.Independent mixer second) :
    second.Independent mixer first :=
  ⟨independent.back, independent.forth, fun place kept other => independent.places place other kept⟩

/-- A command's routes lead from segments that it reads to segments that it writes. -/
theorem segments_of_routes? {routes : List Route} (found : command.routes? mixer = some routes)
    {route : Route} (member : route ∈ routes) :
    route.input ∈ command.inputs mixer ∧ route.output ∈ command.outputs mixer := by
  -- A filter names its two buffers itself, and effects name theirs channel by channel.
  simp only [inputs, outputs, List.mem_filterMap]
  cases command with
  | biquad command =>
    obtain ⟨own, routed, rfl⟩ := Option.map_eq_some_iff.mp found
    obtain rfl := List.mem_singleton.mp member
    simp only [BiquadCommand.route?] at routed
    split at routed
    · cases routed
    · obtain ⟨source, reads, routed⟩ := Option.bind_eq_some_iff.mp routed
      obtain ⟨target, writes, routed⟩ := Option.bind_eq_some_iff.mp routed
      obtain rfl := Option.some.inj routed
      exact ⟨⟨_, List.mem_singleton.mpr rfl, reads⟩, _, List.mem_singleton.mpr rfl, writes⟩
  | limiter command => exact Mixer.exists_of_routes? found member
  | compressor command => exact Mixer.exists_of_routes? found member

/-- A command's segments are those of buffers. -/
theorem exists_of_mem_segments {segment : Segment}
    (member : segment ∈ command.inputs mixer ++ command.outputs mixer) :
    ∃ index, mixer.segment? index = some segment := by
  simp only [inputs, outputs, List.mem_append, List.mem_filterMap] at member
  rcases member with ⟨index, -, found⟩ | ⟨index, -, found⟩
  · exact ⟨index, found⟩
  · exact ⟨index, found⟩

/-- A segment that a command has is as long as a frame. -/
theorem stop_of_mem_segments {segment : Segment}
    (member : segment ∈ command.inputs mixer ++ command.outputs mixer) :
    segment.stop = segment.start + mixer.frame := by
  obtain ⟨index, found⟩ := exists_of_mem_segments member
  obtain ⟨rfl, -⟩ := Mixer.segment?_eq_some found
  rfl

/-- What a command changes lies in no segment that an independent one has. -/
theorem Independent.not_changes (independent : first.Independent mixer second) {segment : Segment}
    (member : segment ∈ second.inputs mixer ++ second.outputs mixer) {position : Nat}
    (here : segment.Has position) : ¬first.Changes mixer position := by
  rintro ⟨written, writes, there⟩
  obtain ⟨index, found⟩ := exists_of_mem_segments member
  obtain ⟨other, target⟩ := exists_of_mem_segments (List.mem_append_right _ writes)
  -- Segments that share a position are the same, and the commands share no written one.
  obtain rfl := Mixer.segment_unique target found there here
  exact independent.forth _ writes member

/-- The routes of a command lead into what it changes. -/
theorem leads_of_routes? {routes : List Route} (found : command.routes? mixer = some routes) :
    ∀ route ∈ routes, route.Leads mixer.frame (command.Changes mixer) := by
  -- A route ends in one of the buffers that the command changes.
  intro route member
  obtain ⟨input, output⟩ := segments_of_routes? found member
  have stops := stop_of_mem_segments (List.mem_append_right (command.inputs mixer) output)
  refine ⟨stop_of_mem_segments (List.mem_append_left _ input), fun instant early => ?_⟩
  exact ⟨route.output, output, Nat.le_add_right _ _, by omega⟩

/-- The routes of a command avoid what an independent one changes. -/
theorem Independent.avoids (independent : first.Independent mixer second) {routes : List Route}
    (found : second.routes? mixer = some routes) :
    ∀ route ∈ routes, route.Avoids mixer.frame (first.Changes mixer) := by
  -- What one command changes is nothing that the other one hears.
  intro route member
  have input := List.mem_append_left (second.outputs mixer) (segments_of_routes? found member).1
  have stops := stop_of_mem_segments input
  refine ⟨stops, fun instant early => independent.not_changes input ?_⟩
  exact ⟨Nat.le_add_right _ _, by omega⟩

/-- A command that runs leaves a footprint in what it changes and in its own memory. -/
theorem footprint_changes (ran : command.process mixer = .ok after) :
    Mixer.Footprint (command.Changes mixer) command.Keeps mixer after :=
  footprint_within (fun _ found => leads_of_routes? found) ran

/-- A command ends alike before and after an independent one. -/
theorem Independent.process_paired (independent : first.Independent mixer second)
    (ran : first.process mixer = .ok middle) :
    Paired (Mixer.Footprint (first.Changes mixer) first.Keeps) (second.process mixer)
      (second.process middle) := by
  have footprint := footprint_changes ran
  refine Command.process_paired footprint (fun _ found => independent.avoids found) ?_
  intro place kept
  by_cases shared : first.Keeps place
  · -- A place that both keep has no memory, before and after.
    have absent := independent.places place shared kept
    rw [absent, (footprint.sizes.read_eq_none place).mpr absent]
  · exact footprint.states place shared

/-- What a command leaves after an independent one differs from the middle where it does alone. -/
theorem footprint_after (shape : middle.SameShape mixer)
    (ran : command.process middle = .ok after) :
    Mixer.Footprint (command.Changes mixer) command.Keeps middle after := by
  refine footprint_within (fun routes found => ?_) ran
  rw [routes?_of_shape shape] at found
  rw [shape.frame]
  exact leads_of_routes? found

/-- The only fault of a command is the overflow of a sum. -/
theorem process_fault {fault : Fault} (ran : command.process mixer = .error fault) :
    fault = .overflow := by
  by_cases fits : command.Fits mixer
  · obtain ⟨after, run⟩ := process_of_fits fits
    cases run.symm.trans ran
  · exact (Except.error.inj ((process_of_not_fits fits).symm.trans ran)).symm

/-- Independent commands come to the same in either order, be it a mixer or a fault. -/
theorem Independent.process_swap (independent : first.Independent mixer second) :
    (do second.process (← first.process mixer)) = (do first.process (← second.process mixer)) := by
  cases one : first.process mixer with
  | error fault =>
    cases two : second.process mixer with
    | error other =>
      -- Each stops the run in its turn, and there is only one fault to stop with.
      rw [error_bind, error_bind, process_fault one, process_fault two]
    | ok other =>
      have again := independent.symm.process_paired two
      rw [one] at again
      rw [error_bind, ok_bind, again.eq_error]
  | ok middle =>
    have later := independent.process_paired one
    cases two : second.process mixer with
    | error fault =>
      rw [two] at later
      rw [error_bind, ok_bind, later.eq_error]
    | ok other =>
      have earlier := independent.symm.process_paired two
      rw [two] at later
      rw [one] at earlier
      obtain ⟨left, ranLeft, besideLeft⟩ := later.exists_of_ok
      obtain ⟨right, ranRight, besideRight⟩ := earlier.exists_of_ok
      rw [ok_bind, ok_bind, ranLeft, ranRight]
      -- Both ends differ from either middle in one command's footprint only.
      have ours := footprint_after (footprint_changes two).shape ranRight
      have theirs := footprint_after (footprint_changes one).shape ranLeft
      have equal : left = right := by
        refine Mixer.eq_of_footprints besideLeft ours theirs besideRight ?_
          fun place kept shared => ?_
        · rintro position changes ⟨segment, writes, here⟩
          exact independent.not_changes (List.mem_append_right _ writes) here changes
        · have absent := independent.places place kept shared
          exact ((footprint_changes two).sizes.read_eq_none place).mpr absent
      rw [equal]

/-- Runs a command on one mixer unless it fails verification on another. -/
def attempt (mixer : Mixer) (command : Command) (target : Mixer) : Except Fault Mixer :=
  if command.verify mixer then command.process target else .ok target

/-- Independent commands may be attempted in either order. -/
theorem Independent.attempt_swap (independent : first.Independent mixer second) :
    (do second.attempt mixer (← first.attempt mixer mixer)) =
      (do first.attempt mixer (← second.attempt mixer mixer)) := by
  -- An attempt that is not made leaves the other one alone.
  have neutral : ∀ run : Except Fault Mixer, (run >>= fun after => .ok after) = run := by
    intro run
    cases run <;> rfl
  simp only [attempt]
  split
  · split
    · exact independent.process_swap
    · rw [neutral, ok_bind]
  · split
    · rw [neutral, ok_bind]
    · rfl

end Command

namespace Mixer

variable {mixer : Mixer} {first second : Command}

/-- Two commands are attempted in turn, and both are counted by their verification at the start. -/
theorem process_pair (mixer : Mixer) (first second : Command) :
    mixer.process [first, second] = (do
      let after ← (do second.attempt mixer (← first.attempt mixer mixer))
      .ok (after, ⟨[first, second].countP (·.verify mixer),
        [first, second].countP (!·.verify mixer)⟩)) := by
  simp only [process, processFrom]
  cases one : first.verify mixer with
  | true =>
    simp only [Command.attempt, one, if_true]
    cases ran : first.process mixer with
    | error fault => rfl
    | ok middle =>
      -- The first command does not change the verdict on the second.
      have footprint := Command.footprint ran
      simp only [ok_bind, Command.verify_of_shape footprint.shape footprint.sizes]
      cases two : second.verify mixer with
      | true =>
        simp only [if_true]
        cases second.process middle with
        | error fault => rfl
        | ok after => simp [one, two]
      | false => simp [one, two]
  | false =>
    simp only [Command.attempt, one, Bool.false_eq_true, if_false, ok_bind]
    cases two : second.verify mixer with
    | true =>
      simp only [if_true]
      cases second.process mixer with
      | error fault => rfl
      | ok after => simp [one, two]
    | false => simp [one, two]

/-- Independent commands leave the same mixer and the same report in either order. -/
theorem process_commutes (independent : first.Independent mixer second) :
    mixer.process [first, second] = mixer.process [second, first] := by
  have counts : ∀ test : Command → Bool,
      [first, second].countP test = [second, first].countP test :=
    fun test => (List.Perm.swap second first []).countP_eq test
  rw [process_pair, process_pair, independent.attempt_swap, counts, counts]

/-- A filter and a limiter that copies, which read the same buffer, run in either order. -/
theorem process_commutes_filter :
    let mixer : Mixer := ⟨⟨3, 2, #[100, 200, 0, 0, 7, 8]⟩, 2, 48000, ⟨#[⟨5, 6, 7, 8⟩], #[], #[]⟩⟩
    let filter : Command := .biquad ⟨0, 1, .passThrough, .zero, some 0, false, false, false⟩
    let copy : Command :=
      .limiter ⟨{ Limiter.Parameters.zero with channels := 1 }, .replicate _ 0, .replicate _ 2,
        some 0, false⟩
    filter.Independent mixer copy ∧ mixer.process [filter, copy] = mixer.process [copy, filter] ∧
      mixer.process [filter, copy] = .ok
        (⟨⟨3, 2, #[100, 200, 100, 200, 100, 200]⟩, 2, 48000, ⟨#[⟨0, 0, 7, 8⟩], #[], #[]⟩⟩,
          ⟨2, 0⟩) := by
  intro mixer filter copy
  have independent : filter.Independent mixer copy := by
    refine ⟨by decide, by decide, fun place kept other => ?_⟩
    -- A filter and a limiter keep their memories in different tables.
    cases kept
    cases other
  exact ⟨independent, process_commutes independent, by decide +kernel⟩

/-- A copy of what a filter writes is not independent of it, and the order makes a difference. -/
example :
    let mixer : Mixer := ⟨⟨3, 2, #[100, 200, 0, 0, 7, 8]⟩, 2, 48000, ⟨#[.initial], #[], #[]⟩⟩
    let filter : Command := .biquad ⟨0, 1, .passThrough, .zero, some 0, false, false, false⟩
    let copy : Command :=
      .limiter ⟨{ Limiter.Parameters.zero with channels := 1 }, .replicate _ 1, .replicate _ 2,
        none, false⟩
    mixer.process [filter, copy] ≠ mixer.process [copy, filter] := by
  decide +kernel

end Mixer

end Mixdown
