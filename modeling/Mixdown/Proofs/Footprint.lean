import Mixdown.Proofs.Command

/-! Commands change no samples but those of their output buffers, and no states but their own. -/

namespace Mixdown

/-- Samples have changed inside a region only, and there are as many as before. -/
structure Confined (region : Nat → Prop) (before after : Array Int32) : Prop where
  size : after.size = before.size
  outside : ∀ position, ¬region position → after[position]? = before[position]?

namespace Confined

variable {region : Nat → Prop}

/-- Samples that stay are confined to any region. -/
theorem refl (samples : Array Int32) : Confined region samples samples := ⟨rfl, fun _ _ => rfl⟩

/-- Two changes in turn are confined to the region that confines each. -/
theorem trans {before middle after : Array Int32} (earlier : Confined region before middle)
    (later : Confined region middle after) : Confined region before after where
  size := later.size.trans earlier.size
  outside position away := (later.outside position away).trans (earlier.outside position away)

/-- Storing a sample inside the region is confined to it. -/
theorem of_store {before after : Array Int32} {index : Nat} {sample : Int32}
    (inside : region index) (stored : store before index sample = .ok after) :
    Confined region before after := by
  obtain ⟨-, rfl⟩ := eq_of_store stored
  refine ⟨Array.size_setIfInBounds, fun position away => ?_⟩
  -- A position outside the region is not the one that was stored at.
  have apart : index ≠ position := fun same => away (same ▸ inside)
  exact Array.getElem?_setIfInBounds_ne apart

end Confined

/-- A route's input is as long as a frame, and its output lies in a region for as long. -/
structure Route.Leads (frame : Nat) (region : Nat → Prop) (route : Route) : Prop where
  input : route.input.stop = route.input.start + frame
  output : ∀ instant, instant < frame → region (route.output.start + instant)

section Loops

variable {region : Nat → Prop} {samples after : Array Int32} {routes : List Route} {frame : Nat}

/-- Steps over the instants of a frame are confined to the region that confines each of them. -/
theorem overInstants_confined {step : Nat → σ → Array Int32 → Except Fault (σ × Array Int32)}
    (steps : ∀ instant, instant < frame → ∀ {state : σ} {samples : Array Int32} {next after},
      step instant state samples = .ok (next, after) → Confined region samples after)
    {state last : σ} (ran : overInstants step frame 0 state samples = .ok (last, after)) :
    Confined region samples after := by
  -- The instants that are left end with the frame, wherever the loop has got to.
  have general : ∀ (count instant : Nat) (state : σ) (samples : Array Int32),
      instant + count = frame → overInstants step count instant state samples = .ok (last, after) →
        Confined region samples after := by
    intro count
    induction count with
    | zero =>
      intro instant state samples total ran
      obtain ⟨-, rfl⟩ := Prod.mk.inj (Except.ok.inj ran)
      exact .refl samples
    | succ count ih =>
      intro instant state samples total ran
      obtain ⟨⟨next, middle⟩, first, rest⟩ := bind_eq_ok.mp ran
      have early : instant < frame := by omega
      exact (steps instant early first).trans (ih (instant + 1) next middle (by omega) rest)
  exact general frame 0 state samples (by omega) ran

/-- Samples that a limiter scales are confined to where its outputs lie at the instant. -/
theorem Limiter.scale_confined {gain makeup : Single} {instant : Nat}
    (inside : ∀ route ∈ routes, region (route.output.start + instant))
    (ran : scale gain makeup instant routes samples = .ok after) :
    Confined region samples after := by
  induction routes generalizing samples with
  | nil =>
    obtain rfl := Except.ok.inj ran
    exact .refl samples
  | cons route routes ih =>
    -- One sample is fetched and stored before the other routes are scaled.
    obtain ⟨sample, -, ran⟩ := bind_eq_ok.mp ran
    obtain ⟨middle, stored, ran⟩ := bind_eq_ok.mp ran
    have later := fun other here => inside other (List.mem_cons_of_mem route here)
    exact (Confined.of_store (inside route (by simp)) stored).trans (ih later ran)

/-- A limiter's run is confined to where its routes lead. -/
theorem Limiter.apply_confined {parameters : Parameters} {rate : Nat} {state last : State}
    (leads : ∀ route ∈ routes, route.Leads frame region)
    (ran : apply parameters rate routes frame state samples = .ok (last, after)) :
    Confined region samples after := by
  refine overInstants_confined (fun instant early {state samples next after} ran => ?_) ran
  -- Detecting peaks only reads, so all that a step writes it writes while scaling.
  obtain ⟨⟨peaks, peak⟩, -, ran⟩ := bind_eq_ok.mp ran
  obtain ⟨scaled, scales, ran⟩ := bind_eq_ok.mp ran
  obtain ⟨-, rfl⟩ := Prod.mk.inj (Except.ok.inj ran)
  exact scale_confined (fun route here => (leads route here).output instant early) scales

/-- Samples that a compressor scales are confined to where its outputs lie at the instant. -/
theorem Compressor.scale_confined {gain : Single} {noting : Bool} {instant channel : Nat}
    {noted last : Vector Single maxChannels}
    (inside : ∀ route ∈ routes, region (route.output.start + instant))
    (ran : scale gain noting instant channel routes noted samples = .ok (last, after)) :
    Confined region samples after := by
  -- Each route stores one sample, at the place that its output has for the instant.
  induction routes generalizing samples channel noted with
  | nil =>
    obtain ⟨-, rfl⟩ := Prod.mk.inj (Except.ok.inj ran)
    exact .refl samples
  | cons route routes ih =>
    obtain ⟨sample, -, ran⟩ := bind_eq_ok.mp ran
    obtain ⟨middle, stored, ran⟩ := bind_eq_ok.mp ran
    have later := fun other here => inside other (List.mem_cons_of_mem route here)
    exact (Confined.of_store (inside route (by simp)) stored).trans (ih later ran)

/-- A compressor's run is confined to where its routes lead. -/
theorem Compressor.apply_confined {parameters : Parameters} {state last : State}
    (leads : ∀ route ∈ routes, route.Leads frame region)
    (ran : apply parameters routes frame state samples = .ok (last, after)) :
    Confined region samples after := by
  simp only [apply] at ran
  split at ran
  · -- Without channels nothing happens.
    obtain ⟨-, rfl⟩ := Prod.mk.inj (Except.ok.inj ran)
    exact .refl samples
  · -- One instant reads any samples and stores through the routes only.
    refine overInstants_confined (fun instant early {state samples next after} ran => ?_) ran
    obtain ⟨sum, -, ran⟩ := bind_eq_ok.mp ran
    obtain ⟨⟨noted, scaled⟩, scales, ran⟩ := bind_eq_ok.mp ran
    obtain ⟨-, rfl⟩ := Prod.mk.inj (Except.ok.inj ran)
    exact scale_confined (fun route here => (leads route here).output instant early) scales

namespace Arena

variable {arena spliced : Arena}

/-- Samples that are written are confined to the region in which their positions lie. -/
theorem splice_confined {start : Nat} {items : List Int32}
    (inside : ∀ offset, offset < items.length → region (start + offset))
    (ran : arena.splice start items = .ok spliced) :
    ∃ samples, spliced = { arena with samples } ∧ Confined region arena.samples samples := by
  simp only [splice] at ran
  split at ran
  · simp at ran
  · next room =>
    obtain ⟨written, run, size, cells⟩ :=
      write_eq arena.samples start items (Nat.not_lt.mp room)
    rw [run, ok_bind] at ran
    refine ⟨written, (Except.ok.inj ran).symm, size, fun position away => ?_⟩
    rw [cells position, if_neg]
    -- A position that was written at is an offset from the start, which the region holds.
    rintro ⟨low, high⟩
    obtain ⟨offset, rfl⟩ := Nat.exists_eq_add_of_le low
    exact away (inside offset (by omega))

/-- A segment holds no more samples than it is long. -/
theorem slice_length_le (arena : Arena) (segment : Segment) :
    (arena.slice segment).length ≤ segment.stop - segment.start := by
  simp only [slice, Array.length_toList, Array.size_extract]
  omega

/-- Copying along routes is confined to where they lead. -/
theorem copyRoutes_confined (leads : ∀ route ∈ routes, route.Leads frame region)
    (ran : arena.copyRoutes routes = .ok spliced) :
    ∃ samples, spliced = { arena with samples } ∧ Confined region arena.samples samples := by
  -- A route writes no more than its input has, which is no more than its output leads to.
  induction routes generalizing arena with
  | nil =>
    obtain rfl := Except.ok.inj ran
    exact ⟨arena.samples, rfl, .refl arena.samples⟩
  | cons route routes ih =>
    obtain ⟨middle, first, ran⟩ := bind_eq_ok.mp ran
    obtain ⟨input, output⟩ := leads route (by simp)
    have short := arena.slice_length_le route.input
    obtain ⟨copied, rfl, earlier⟩ :=
      splice_confined (fun offset early => output offset (by omega)) first
    obtain ⟨samples, rfl, later⟩ :=
      ih (fun other here => leads other (List.mem_cons_of_mem route here)) ran
    exact ⟨samples, rfl, earlier.trans later⟩

end Arena

end Loops

/-- Tables are as long as before. -/
structure States.SameSizes (after before : States) : Prop where
  biquad : after.biquad.size = before.biquad.size
  limiter : after.limiter.size = before.limiter.size
  compressor : after.compressor.size = before.compressor.size

/-- Tables are as long as themselves. -/
theorem States.SameSizes.refl (states : States) : states.SameSizes states := ⟨rfl, rfl, rfl⟩

/-- Lengths of tables are passed on. -/
theorem States.SameSizes.trans {last middle first : States} (later : last.SameSizes middle)
    (earlier : middle.SameSizes first) : last.SameSizes first :=
  ⟨later.biquad.trans earlier.biquad, later.limiter.trans earlier.limiter,
    later.compressor.trans earlier.compressor⟩

/-- Lengths of tables are as well compared the other way round. -/
theorem States.SameSizes.symm {after before : States} (sizes : after.SameSizes before) :
    before.SameSizes after :=
  ⟨sizes.biquad.symm, sizes.limiter.symm, sizes.compressor.symm⟩

/-- Writing a memory leaves all tables as long as they are. -/
theorem States.write_sameSizes (states : States) (place : Place) (memory : Memory) :
    (states.write place memory).SameSizes states := by
  -- A memory of another kind than its place is not written at all.
  cases place <;> cases memory <;>
    exact ⟨by simp [write], by simp [write], by simp [write]⟩

/-- Whether a place has a memory depends on the lengths of the tables only. -/
theorem States.SameSizes.read_eq_none {after before : States} (sizes : after.SameSizes before)
    (place : Place) : after.read place = none ↔ before.read place = none := by
  cases place with
  | biquad index => simp [read, sizes.biquad]
  | limiter index => simp [read, sizes.limiter]
  | compressor index => simp [read, sizes.compressor]

namespace Mixer

/-- The buffer of an index lies in the arena. -/
def Holds (mixer : Mixer) (index : Int16) : Prop :=
  0 ≤ index ∧ index.toInt.toNat * mixer.frame + mixer.frame ≤ mixer.arena.size

/-- A position lies in the buffer of an index, which lies in the arena. -/
def Covers (mixer : Mixer) (index : Int16) (position : Nat) : Prop :=
  mixer.Holds index ∧ index.toInt.toNat * mixer.frame ≤ position ∧
    position < index.toInt.toNat * mixer.frame + mixer.frame

/--
One mixer differs from another at most in the samples at some positions and the memories at some
places.
-/
structure Footprint (writes : Nat → Prop) (names : Place → Prop) (before after : Mixer) : Prop where
  shape : after.SameShape before
  samples : ∀ position, ¬writes position →
    after.arena.samples[position]? = before.arena.samples[position]?
  sizes : after.states.SameSizes before.states
  states : ∀ place, ¬names place → after.states.read place = before.states.read place

section Footprint

variable {writes : Nat → Prop} {names : Place → Prop} {mixer : Mixer}

/-- A mixer does not differ from itself. -/
theorem Footprint.refl (mixer : Mixer) : Footprint writes names mixer mixer :=
  ⟨.refl mixer, fun _ _ => rfl, .refl mixer.states, fun _ _ => rfl⟩

/-- Two changes in turn differ from the first mixer where one of them does. -/
theorem Footprint.trans {before middle after : Mixer} (earlier : Footprint writes names before middle)
    (later : Footprint writes names middle after) : Footprint writes names before after where
  shape := later.shape.trans earlier.shape
  samples position away := (later.samples position away).trans (earlier.samples position away)
  sizes := later.sizes.trans earlier.sizes
  states place away := (later.states place away).trans (earlier.states place away)

/-- A footprint may be taken for a wider one. -/
theorem Footprint.mono {before after : Mixer} {wider : Nat → Prop} {more : Place → Prop}
    (footprint : Footprint writes names before after)
    (widens : ∀ position, writes position → wider position)
    (adds : ∀ place, names place → more place) : Footprint wider more before after where
  shape := footprint.shape
  samples position away := footprint.samples position (mt (widens position) away)
  sizes := footprint.sizes
  states place away := footprint.states place (mt (adds place) away)

/-- Samples that are confined to the written positions are a footprint. -/
theorem Footprint.of_confined {samples : Array Int32}
    (confined : Confined writes mixer.arena.samples samples) :
    Footprint writes names mixer { mixer with arena := { mixer.arena with samples } } where
  shape := ⟨rfl, rfl, rfl, rfl, confined.size⟩
  samples := confined.outside
  sizes := .refl mixer.states
  states _ _ := rfl

/-- A memory written at a named place is a footprint. -/
theorem Footprint.of_write {place : Place} (named : names place) (memory : Memory) :
    Footprint writes names mixer { mixer with states := mixer.states.write place memory } where
  shape := ⟨rfl, rfl, rfl, rfl, rfl⟩
  samples _ _ := rfl
  sizes := mixer.states.write_sameSizes place memory
  states other away := mixer.states.read_write_ne (by rintro rfl; exact away named) memory

end Footprint

variable {mixer : Mixer}

/-- Whether a position is covered depends on the shape only. -/
theorem covers_of_shape {after : Mixer} (shape : after.SameShape mixer) (index : Int16)
    (position : Nat) : after.Covers index position ↔ mixer.Covers index position := by
  simp only [Covers, Holds, shape.frame, shape.size]

/-- Segments are those of buffers in the arena, and cover all of their positions. -/
theorem holds_of_segment? {index : Int16} {segment : Segment}
    (found : mixer.segment? index = some segment) : mixer.Holds index := by
  have positive : ¬index < 0 := by
    intro negative
    simp [segment?, negative] at found
  exact ⟨Int16.not_lt.mp positive, (segment?_eq_some found).2⟩

/-- A route between the segments of two indices leads into the buffer of the second. -/
theorem leads_of_segments {input output : Int16} {route : Route}
    (source : mixer.segment? input = some route.input)
    (target : mixer.segment? output = some route.output) :
    route.Leads mixer.frame (mixer.Covers output) := by
  -- Both buffers are as long as a frame, so that an instant of one is an instant of the other.
  have holds := holds_of_segment? target
  obtain ⟨starts, -⟩ := segment?_eq_some source
  obtain ⟨ends, -⟩ := segment?_eq_some target
  refine ⟨by rw [starts], fun instant early => ⟨holds, ?_⟩⟩
  simp only [ends]
  omega

/-- Routes exist only when every channel's buffers are in the arena, and lead into the outputs. -/
theorem routes?_leads {channels : Nat} {inputs outputs : Vector Int16 maxChannels}
    {routes : List Route} (found : mixer.routes? channels inputs outputs = some routes) :
    (∀ index ∈ inputs.toList.take channels ++ outputs.toList.take channels, mixer.Holds index) ∧
      ∀ route ∈ routes, route.Leads mixer.frame fun position =>
        ∃ index ∈ outputs.toList.take channels, mixer.Covers index position := by
  -- Inputs and outputs are equally many, so a channel's index on either side is in its pair.
  have fronts : inputs.toList.take channels =
      ((inputs.toList.zip outputs.toList).take channels).map Prod.fst := by
    rw [List.map_take, List.map_fst_zip (by simp)]
  have backs : outputs.toList.take channels =
      ((inputs.toList.zip outputs.toList).take channels).map Prod.snd := by
    rw [List.map_take, List.map_snd_zip (by simp)]
  rw [fronts, backs]
  simp only [routes?] at found
  generalize (inputs.toList.zip outputs.toList).take channels = ways at found ⊢
  induction ways generalizing routes with
  | nil =>
    obtain rfl := Option.some.inj found
    simp
  | cons way ways ih =>
    rw [List.mapM_cons] at found
    obtain ⟨route, first, found⟩ := Option.bind_eq_some_iff.mp found
    obtain ⟨others, rest, found⟩ := Option.bind_eq_some_iff.mp found
    obtain ⟨input, source, first⟩ := Option.bind_eq_some_iff.mp first
    obtain ⟨output, target, first⟩ := Option.bind_eq_some_iff.mp first
    obtain rfl := Option.some.inj first
    obtain rfl := Option.some.inj found
    obtain ⟨held, leads⟩ := ih rest
    constructor
    · intro index member
      simp only [List.map_cons, List.mem_append, List.mem_cons] at member held
      -- The first pair has segments itself, and all others are held by induction.
      rcases member with (rfl | member) | (rfl | member)
      · exact holds_of_segment? source
      · exact held index (.inl member)
      · exact holds_of_segment? target
      · exact held index (.inr member)
    · intro route member
      rcases List.mem_cons.mp member with rfl | member
      · have own : Route.Leads mixer.frame (mixer.Covers way.2) ⟨input, output⟩ :=
          leads_of_segments source target
        exact ⟨own.input, fun instant early => ⟨way.2, by simp, own.output instant early⟩⟩
      · obtain ⟨input, output⟩ := leads route member
        refine ⟨input, fun instant early => ?_⟩
        obtain ⟨index, here, covers⟩ := output instant early
        exact ⟨index, List.mem_cons_of_mem _ here, covers⟩

end Mixer

namespace BiquadCommand

variable {command : BiquadCommand}

/-- A filter gives one sample for each that it has read. -/
theorem filter_length {state last : Biquad.State} {samples outputs : List Int32}
    (ran : command.filter state samples = .ok (last, outputs)) :
    outputs.length = samples.length := by
  -- All kernels are runs of a step over the samples.
  simp only [filter, Biquad.applyInteger, Biquad.applyWidened, Biquad.applyFloat,
    Biquad.applyDouble] at ran
  split at ran <;> exact Biquad.run_length ran

end BiquadCommand

namespace Command

/-- The buffers that a command reads, one for every active channel. -/
def sources : Command → List Int16
  | .biquad command => [command.input]
  | .limiter command => command.inputs.toList.take command.channels
  | .compressor command => command.inputs.toList.take command.channels

/-- The buffers that a command writes, one for every active channel. -/
def targets : Command → List Int16
  | .biquad command => [if command.output < 0 then command.input else command.output]
  | .limiter command => command.outputs.toList.take command.channels
  | .compressor command => command.outputs.toList.take command.channels

/-- A position lies in the output buffer of one of a command's channels. -/
def Writes (mixer : Mixer) (command : Command) (position : Nat) : Prop :=
  ∃ index ∈ command.targets, mixer.Covers index position

/-- A command keeps its memory at a place. -/
def Keeps (command : Command) (place : Place) : Prop := command.place? = some place

/-- The memory that a command finds, if its place is there. -/
def memory? (command : Command) (states : States) : Option Memory :=
  command.place?.bind states.read

/-- Limiters and compressors are effects on several channels, and filters are not. -/
def isEffect : Command → Bool
  | .biquad _ => false
  | .limiter _ | .compressor _ => true

/-- An effect that is not enabled passes its channels on, and a filter always filters. -/
def enabled : Command → Bool
  | .biquad _ => true
  | .limiter command => command.enabled
  | .compressor command => command.enabled

/-- The routes of a command's channels, unless one of their buffers lies outside the arena. -/
def routes? (mixer : Mixer) : Command → Option (List Route)
  | .biquad command => (command.route? mixer).map ([·])
  | .limiter command => mixer.routes? command.channels command.inputs command.outputs
  | .compressor command => mixer.routes? command.channels command.inputs command.outputs

/-- What an enabled effect makes of its memory and of the samples along routes. -/
def work (mixer : Mixer) (routes : List Route) :
    Command → Memory → Except Fault (Memory × Array Int32)
  | .limiter command, .limiter state => do
    let (state, samples) ←
      Limiter.apply command.parameters mixer.rate routes mixer.frame state mixer.arena.samples
    pure (.limiter state, samples)
  | .compressor command, .compressor state => do
    let (state, samples) ←
      Compressor.apply command.parameters routes mixer.frame (command.prepare state)
        mixer.arena.samples
    pure (.compressor state, samples)
  -- A filter is no effect, and an effect finds no memory of another kind than its own.
  | _, memory => .ok (memory, mixer.arena.samples)

/-- The run that limiters and compressors share: routes are looked for first, a memory last. -/
def runEffect (command : Command) (mixer : Mixer) : Except Fault Mixer :=
  match command.routes? mixer with
  | none => .ok mixer
  | some routes =>
    if command.enabled then
      match command.place? with
      | none => .ok mixer
      | some place =>
        match mixer.states.read place with
        | none => .ok mixer
        | some held => do
          let (memory, samples) ← command.work mixer routes held
          pure { mixer with
                 arena := { mixer.arena with samples }
                 states := mixer.states.write place memory }
    else do
      pure { mixer with arena := ← mixer.arena.copyRoutes routes }

variable {mixer after : Mixer}

/-- Positions that a command writes depend on the shape only. -/
theorem writes_of_shape (shape : after.SameShape mixer) (command : Command) (position : Nat) :
    command.Writes after position ↔ command.Writes mixer position := by
  simp only [Writes, Mixer.covers_of_shape shape]

/-- Commands have routes only when their buffers are in the arena, and these lead into the outputs. -/
theorem routes?_leads {command : Command} {routes : List Route}
    (found : command.routes? mixer = some routes) :
    (∀ index ∈ command.sources ++ command.targets, mixer.Holds index) ∧
      ∀ route ∈ routes, route.Leads mixer.frame (command.Writes mixer) := by
  -- A filter has one route, found through both of its buffers; effects have the routes of the
  -- mixer.
  cases command with
  | biquad command =>
    obtain ⟨route, routed, rfl⟩ := Option.map_eq_some_iff.mp found
    simp only [BiquadCommand.route?] at routed
    split at routed
    · simp at routed
    · obtain ⟨input, source, routed⟩ := Option.bind_eq_some_iff.mp routed
      obtain ⟨output, target, routed⟩ := Option.bind_eq_some_iff.mp routed
      obtain rfl := Option.some.inj routed
      have own : Route.Leads mixer.frame _ ⟨input, output⟩ := Mixer.leads_of_segments source target
      constructor
      · simp only [sources, targets, List.singleton_append, List.forall_mem_cons,
          List.not_mem_nil, IsEmpty.forall_iff, implies_true, and_true]
        exact ⟨Mixer.holds_of_segment? source, Mixer.holds_of_segment? target⟩
      · simp only [List.forall_mem_singleton]
        exact ⟨own.input, fun instant early =>
          ⟨_, List.mem_singleton.mpr rfl, own.output instant early⟩⟩
  | limiter command => exact Mixer.routes?_leads found
  | compressor command => exact Mixer.routes?_leads found

/-- What an effect does is confined to where its routes lead. -/
theorem work_confined {command : Command} {routes : List Route} {region : Nat → Prop}
    {held memory : Memory} {samples : Array Int32}
    (leads : ∀ route ∈ routes, route.Leads mixer.frame region)
    (ran : command.work mixer routes held = .ok (memory, samples)) :
    Confined region mixer.arena.samples samples := by
  -- What is limited or compressed is stored through the routes; any other kind stores nothing.
  simp only [work] at ran
  split at ran
  · obtain ⟨⟨last, limited⟩, applied, ran⟩ := bind_eq_ok.mp ran
    obtain ⟨-, rfl⟩ := Prod.mk.inj (Except.ok.inj ran)
    exact Limiter.apply_confined leads applied
  · obtain ⟨⟨last, compressed⟩, applied, ran⟩ := bind_eq_ok.mp ran
    obtain ⟨-, rfl⟩ := Prod.mk.inj (Except.ok.inj ran)
    exact Compressor.apply_confined leads applied
  · obtain ⟨-, rfl⟩ := Prod.mk.inj (Except.ok.inj ran)
    exact .refl _

/-- Limiters and compressors run in the same way, but for what they do with their memories. -/
theorem process_effect {command : Command} (effect : command.isEffect) (mixer : Mixer) :
    command.process mixer = command.runEffect mixer := by
  cases command with
  | biquad command => simp [isEffect] at effect
  | limiter command =>
    simp only [process, LimiterCommand.process, runEffect, routes?, Command.enabled, place?]
    cases mixer.routes? command.channels command.inputs command.outputs with
    | none => rfl
    | some routes =>
      by_cases enabled : command.enabled
      · simp only [enabled, Bool.not_true, Bool.false_eq_true, if_false, if_true]
        cases command.state with
        | none => rfl
        | some handle =>
          -- The handle and the state that it finds are the place and the memory of the command.
          cases live : mixer.states.limiter[handle]? with
          | none => simp [States.read, live]
          | some state =>
            simp only [States.read, live, Option.bind_some, Option.map_some, work, bind_assoc,
              pure_bind]
            rfl
      · simp [enabled]
  | compressor command =>
    simp only [process, CompressorCommand.process, runEffect, routes?, Command.enabled, place?]
    cases mixer.routes? command.channels command.inputs command.outputs with
    | none => rfl
    | some routes =>
      by_cases enabled : command.enabled
      · simp only [enabled, Bool.not_true, Bool.false_eq_true, if_false, if_true]
        cases command.state with
        | none => rfl
        | some handle =>
          cases live : mixer.states.compressor[handle]? with
          | none => simp [States.read, live]
          | some state =>
            simp only [States.read, live, Option.bind_some, Option.map_some, work, bind_assoc,
              pure_bind]
            rfl
      · simp [enabled]

/-- A filter leaves a footprint where its route leads and in its own memory. -/
theorem footprint_biquad {command : BiquadCommand} {region : Nat → Prop}
    (leads : ∀ routes, (biquad command).routes? mixer = some routes →
      ∀ route ∈ routes, route.Leads mixer.frame region)
    (ran : command.process mixer = .ok after) :
    Mixer.Footprint region (biquad command).Keeps mixer after := by
  simp only [BiquadCommand.process] at ran
  split at ran
  · obtain rfl := Except.ok.inj ran
    exact .refl mixer
  · next handle placed =>
    have named : (biquad command).Keeps (.biquad handle) := by simp [Keeps, place?, placed]
    split at ran
    · obtain rfl := Except.ok.inj ran
      exact .refl mixer
    · next held found =>
      split at ran
      · -- Without a route there is only the reset to write.
        obtain rfl := Except.ok.inj ran
        exact .of_write named (.biquad _)
      · next route routed =>
        obtain ⟨⟨state, items⟩, filtered, ran⟩ := bind_eq_ok.mp ran
        obtain ⟨arena, spliced, ran⟩ := bind_eq_ok.mp ran
        obtain rfl := Except.ok.inj ran
        have reached : (biquad command).routes? mixer = some [route] := by simp [routes?, routed]
        obtain ⟨input, output⟩ := leads [route] reached route (by simp)
        -- The filter gives as many samples as it has read, which are no more than a frame.
        have short := mixer.arena.slice_length_le route.input
        have same := BiquadCommand.filter_length filtered
        have writes : ∀ offset, offset < items.length → region (route.output.start + offset) :=
          fun offset early => output offset (by omega)
        obtain ⟨samples, rfl, confined⟩ := Arena.splice_confined writes spliced
        exact (Mixer.Footprint.of_confined confined).trans (.of_write named (.biquad state))

/-- An effect leaves a footprint where its routes lead and in its own memory. -/
theorem footprint_effect {command : Command} {region : Nat → Prop} (effect : command.isEffect)
    (leads : ∀ routes, command.routes? mixer = some routes →
      ∀ route ∈ routes, route.Leads mixer.frame region)
    (ran : command.process mixer = .ok after) :
    Mixer.Footprint region command.Keeps mixer after := by
  -- An effect returns early without its routes, without a place and without a live state.
  rw [process_effect effect] at ran
  simp only [runEffect] at ran
  split at ran
  · obtain rfl := Except.ok.inj ran
    exact .refl mixer
  · next routes reached =>
    have leads := leads routes reached
    split at ran
    · split at ran
      · obtain rfl := Except.ok.inj ran
        exact .refl mixer
      · next place placed =>
        split at ran
        · obtain rfl := Except.ok.inj ran
          exact .refl mixer
        · next held live =>
          -- The samples are written first and then the one place, so the two footprints follow each
          -- other.
          obtain ⟨⟨memory, samples⟩, worked, ran⟩ := bind_eq_ok.mp ran
          obtain rfl := Except.ok.inj ran
          have confined := work_confined leads worked
          exact (Mixer.Footprint.of_confined confined).trans (.of_write placed memory)
    · -- An effect that is not enabled copies, and does not touch its memory.
      obtain ⟨arena, copied, ran⟩ := bind_eq_ok.mp ran
      obtain rfl := Except.ok.inj ran
      obtain ⟨samples, rfl, confined⟩ := Arena.copyRoutes_confined leads copied
      exact .of_confined confined

/-- A command that runs leaves a footprint where its routes lead and in its own memory. -/
theorem footprint_within {command : Command} {region : Nat → Prop}
    (leads : ∀ routes, command.routes? mixer = some routes →
      ∀ route ∈ routes, route.Leads mixer.frame region)
    (ran : command.process mixer = .ok after) :
    Mixer.Footprint region command.Keeps mixer after := by
  cases command with
  | biquad command => exact footprint_biquad leads ran
  | limiter command => exact footprint_effect rfl leads ran
  | compressor command => exact footprint_effect rfl leads ran

/-- A command that runs leaves a footprint in its output buffers and its own memory. -/
theorem footprint {command : Command} (ran : command.process mixer = .ok after) :
    Mixer.Footprint (command.Writes mixer) command.Keeps mixer after :=
  footprint_within (fun _ found => (routes?_leads found).2) ran

/-- An effect without room for a channel, or one that is enabled without a memory, does nothing. -/
theorem process_eq_self {command : Command} (effect : command.isEffect)
    (lacks : (∃ index ∈ command.sources ++ command.targets, ¬mixer.Holds index) ∨
      (command.enabled ∧ command.memory? mixer.states = none)) :
    command.process mixer = .ok mixer := by
  rw [process_effect effect, runEffect]
  cases reached : command.routes? mixer with
  | none => rfl
  | some routes =>
    -- All buffers are there once there are routes, so it is the memory that is missing.
    obtain ⟨held, -⟩ := routes?_leads reached
    obtain ⟨index, here, absent⟩ | ⟨enabled, missing⟩ := lacks
    · exact absurd (held index here) absent
    · simp only [enabled, if_true]
      cases placed : command.place? with
      | none => rfl
      | some place =>
        have dead : mixer.states.read place = none := by simpa [memory?, placed] using missing
        simp only [dead]

end Command

namespace Mixer

/-- A run of commands leaves a footprint in the output buffers and the memories of all of them. -/
theorem processFrom_footprint {mixer after : Mixer} {report last : Report} {commands : List Command}
    (ran : mixer.processFrom report commands = .ok (after, last)) :
    Footprint (fun position => ∃ command ∈ commands, command.Writes mixer position)
      (fun place => ∃ command ∈ commands, command.Keeps place) mixer after := by
  -- The footprints of the commands are joined, the first one before those of the others.
  induction commands generalizing mixer report with
  | nil =>
    obtain ⟨rfl, -⟩ := Prod.mk.inj (Except.ok.inj ran)
    exact .refl mixer
  | cons command commands ih =>
    simp only [processFrom] at ran
    split at ran
    · obtain ⟨middle, first, rest⟩ := bind_eq_ok.mp ran
      have own := Command.footprint first
      refine @Footprint.trans _ _ mixer middle after ?_ ?_
      · exact own.mono (fun _ writes => ⟨command, by simp, writes⟩)
          (fun _ names => ⟨command, by simp, names⟩)
      · -- The others write where they would have written before, since the shape has stayed.
        refine (ih rest).mono ?_ ?_
        · rintro position ⟨other, here, writes⟩
          exact ⟨other, List.mem_cons_of_mem _ here,
            (Command.writes_of_shape own.shape other position).mp writes⟩
        · rintro place ⟨other, here, names⟩
          exact ⟨other, List.mem_cons_of_mem _ here, names⟩
    · -- A command that is skipped leaves none.
      refine (ih ran).mono ?_ ?_
      · rintro position ⟨other, here, writes⟩
        exact ⟨other, List.mem_cons_of_mem _ here, writes⟩
      · rintro place ⟨other, here, names⟩
        exact ⟨other, List.mem_cons_of_mem _ here, names⟩

/--
Commands that run change samples in their output buffers and memories at their places, and nothing
else; and an effect that lacks a buffer, or is enabled without a memory, changes nothing at all.
-/
theorem process_footprint (mixer : Mixer) (commands : List Command) :
    (∀ after report, mixer.process commands = .ok (after, report) →
      Footprint (fun position => ∃ command ∈ commands, command.Writes mixer position)
        (fun place => ∃ command ∈ commands, command.Keeps place) mixer after) ∧
      ∀ command : Command, command.isEffect →
        ((∃ index ∈ command.sources ++ command.targets, ¬mixer.Holds index) ∨
          (command.enabled ∧ command.memory? mixer.states = none)) →
        command.process mixer = .ok mixer :=
  ⟨fun _ _ ran => processFrom_footprint ran,
    fun _ effect lacks => Command.process_eq_self effect lacks⟩

/-- A filter and a limiter that copies run, and a limiter beyond the arena does nothing. -/
theorem process_footprint_filter :
    let mixer : Mixer := ⟨⟨3, 2, #[100, 200, 0, 0, 7, 8]⟩, 2, 48000, ⟨#[.initial], #[], #[]⟩⟩
    let filter : Command := .biquad ⟨0, 1, .passThrough, .zero, some 0, true, false, false⟩
    let copy : Command :=
      .limiter ⟨{ Limiter.Parameters.zero with channels := 1 }, .replicate _ 1, .replicate _ 2,
        none, false⟩
    let beyond : Command :=
      .limiter ⟨{ Limiter.Parameters.zero with channels := 1 }, .replicate _ 0, .replicate _ 3,
        none, false⟩
    let after : Mixer :=
      { mixer with arena := { mixer.arena with samples := #[100, 200, 100, 200, 100, 200] } }
    mixer.process [filter, copy] = .ok (after, ⟨2, 0⟩) ∧
      Footprint (fun position => ∃ command ∈ [filter, copy], command.Writes mixer position)
        (fun place => ∃ command ∈ [filter, copy], command.Keeps place) mixer after ∧
      beyond.process mixer = .ok mixer := by
  intro mixer filter copy beyond after
  have ran : mixer.process [filter, copy] = .ok (after, ⟨2, 0⟩) := by decide +kernel
  obtain ⟨footprint, still⟩ := process_footprint mixer [filter, copy]
  -- The last command names a buffer that is not there, which the effect sees for itself.
  refine ⟨ran, footprint after ⟨2, 0⟩ ran, still beyond rfl (.inl ⟨3, ?_, ?_⟩)⟩
  · decide
  · simp only [Holds]
    decide

end Mixer

end Mixdown
