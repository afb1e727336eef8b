import Mixdown.Proofs.Commutation

/-! Effects make the same of their inputs wherever they write, as long as no channel writes what a
later one reads. -/

namespace Mixdown

/-- No way of a list leads into a buffer that a later way reads or writes. -/
def Untangled (ways : List (α × α)) : Prop :=
  ways.Pairwise fun earlier later => earlier.2 ≠ later.1 ∧ earlier.2 ≠ later.2

instance [DecidableEq α] {ways : List (α × α)} : Decidable (Untangled ways) :=
  inferInstanceAs (Decidable (List.Pairwise _ ways))

section Untangled

variable {change : Int32 → Int32} {ways : List (Nat × Nat)} {column : Column}

/-- A buffer that no way leads into keeps its sample. -/
theorem rewrite_of_notMem {buffer : Nat} (away : ∀ way ∈ ways, way.2 ≠ buffer) :
    rewrite change ways column buffer = column buffer := by
  induction ways generalizing column with
  | nil => rfl
  | cons way ways ih =>
    obtain ⟨own, others⟩ := List.forall_mem_cons.mp away
    -- The later ways leave the buffer as the first one has left it, which writes elsewhere.
    rw [rewrite, List.foldl_cons]
    exact (ih others).trans (Function.update_of_ne own.symm _ _)

/-- Along untangled ways every sample is read as it was before any of them was written. -/
theorem rewrite_untangled (untangled : Untangled ways) :
    (ways.map fun way => rewrite change ways column way.2) =
      ways.map fun way => change (column way.1) := by
  induction ways generalizing column with
  | nil => rfl
  | cons way ways ih =>
    obtain ⟨first, rest⟩ := List.pairwise_cons.mp untangled
    simp only [List.map_cons, rewrite, List.foldl_cons, List.cons.injEq]
    constructor
    · -- No later way writes over what the first one has written.
      refine (rewrite_of_notMem fun other here => (first other here).2.symm).trans ?_
      exact Function.update_self _ _ _
    · -- And none reads it, so that the others find their samples as before.
      refine (ih rest).trans (List.map_congr_left fun other here => ?_)
      rw [Function.update_of_ne (first other here).1.symm]

/-- Ways out of distinct items into others are untangled. -/
theorem untangled_zip {sources targets : List α} (distinct : targets.Nodup)
    (apart : ∀ source ∈ sources, source ∉ targets) : Untangled (sources.zip targets) := by
  induction sources generalizing targets with
  | nil => exact .nil
  | cons source sources ih =>
    cases targets with
    | nil => exact .nil
    | cons target targets =>
      obtain ⟨single, others⟩ := List.nodup_cons.mp distinct
      -- The first target is the source of no way, and the target of no other one.
      refine List.pairwise_cons.mpr ⟨fun way here => ?_, ih others fun other there => ?_⟩
      · obtain ⟨reads, writes⟩ := List.of_mem_zip here
        constructor
        · rintro rfl
          exact apart _ (List.mem_cons_of_mem _ reads) List.mem_cons_self
        · rintro rfl
          exact single writes
      · exact fun found => apart other (List.mem_cons_of_mem _ there) (List.mem_cons_of_mem _ found)

/-- Ways that lead from distinct items back to them are untangled. -/
theorem untangled_self {sources : List α} (distinct : sources.Nodup) :
    Untangled (sources.zip sources) := by
  induction sources with
  | nil => exact .nil
  | cons source sources ih =>
    obtain ⟨single, others⟩ := List.nodup_cons.mp distinct
    -- A way reads and writes one buffer alone, and no other way reads or writes it.
    refine List.pairwise_cons.mpr ⟨fun way here => ?_, ih others⟩
    obtain ⟨reads, writes⟩ := List.of_mem_zip here
    constructor
    · rintro rfl
      exact single reads
    · rintro rfl
      exact single writes

end Untangled

namespace Limiter

/-- What the limiter makes of the samples that its channels have at one instant. -/
def hear (settings : Settings) (state : State) (samples : List Int32) : State × List Int32 :=
  let (peaks, peak) := listen 0 samples state.peaks 0
  let state := follow settings { state with peaks } peak
  (state, samples.map (scaled state.gain settings.makeup))

/-- Along untangled ways the limiter changes a column as it hears the column's inputs. -/
theorem hear_eq {ways : List (Nat × Nat)} (untangled : Untangled ways) (settings : Settings)
    (state : State) (column : Column) :
    hear settings state (ways.map fun way => column way.1) =
      ((tick settings ways state column).1,
        ways.map fun way => (tick settings ways state column).2 way.2) := by
  -- The peaks are taken from the inputs in either case, so that only the outputs must be compared.
  simp only [hear, tick, rewrite_untangled untangled, List.map_map]
  rfl

/-- Over a frame the limiter hears the inputs of all columns as they were before it ran. -/
theorem feed_hear {ways : List (Nat × Nat)} (untangled : Untangled ways) (settings : Settings)
    (state : State) (columns : List Column) :
    feed (hear settings) state (columns.map fun column => ways.map fun way => column way.1) =
      ((feed (tick settings ways) state columns).1,
        (feed (tick settings ways) state columns).2.map fun column =>
          ways.map fun way => column way.2) :=
  feed_view (tick settings ways) (fun column => ways.map fun way => column way.1)
    (fun column => ways.map fun way => column way.2) (hear_eq untangled settings) state columns

end Limiter

namespace Compressor

/-- A scaled sample. -/
def scaled (gain : Single) (sample : Int32) : Int32 := (Single.ofSample sample * gain).toSample

/-- The magnitudes of samples noted in order. -/
def note : (channel : Nat) → List Int32 → Vector Single maxChannels → Vector Single maxChannels
  | _, [], noted => noted
  | channel, sample :: samples, noted =>
    let magnitude : Fixed 15 := ⟨sample.toInt64.abs⟩
    note (channel + 1) samples (noted.setIfInBounds channel magnitude.toSingle)

/-- What the compressor makes of the samples that its channels have at one instant. -/
def hear (parameters : Parameters) (state : State) (samples : List Int32) : State × List Int32 :=
  if samples = [] then (state, [])
  else
    let mean := power samples 0 / .ofNat samples.length
    let state := follow parameters state mean
    let gain := state.gainSmoothed * state.outputGain
    let { maximumMean, minimumGain, lastSamples } := state.statistics
    let statistics : Statistics :=
      if parameters.statistics ≠ 0 then
        { maximumMean := maximumMean.larger mean, minimumGain := minimumGain.smaller gain,
          lastSamples := note 0 samples lastSamples }
      else state.statistics
    ({ state with statistics }, samples.map (scaled gain))

/-- Where a frame begins does not depend on where the ways lead. -/
theorem restart_congr {ways others : List (Nat × Nat)} (same : others.length = ways.length)
    (parameters : Parameters) : restart parameters others = restart parameters ways := by
  funext state
  simp only [restart, ne_eq, ← List.length_eq_zero_iff, same]

variable {gain : Single} {ways : List (Nat × Nat)}

/-- The column is rewritten whether or not magnitudes are noted. -/
theorem shape_column (noting : Bool) (channel : Nat) (noted : Vector Single maxChannels)
    (column : Column) :
    (shape gain noting channel ways noted column).2 = rewrite (scaled gain) ways column := by
  induction ways generalizing channel noted column with
  | nil => rfl
  | cons way ways ih => exact ih _ _ _

/-- Along untangled ways the magnitudes are those of the inputs before any of them was written. -/
theorem shape_noted (untangled : Untangled ways) (channel : Nat)
    (noted : Vector Single maxChannels) (column : Column) :
    (shape gain true channel ways noted column).1 =
      note channel (ways.map fun way => column way.1) noted := by
  induction ways generalizing channel noted column with
  | nil => rfl
  | cons way ways ih =>
    obtain ⟨first, rest⟩ := List.pairwise_cons.mp untangled
    -- Whatever the first way writes, the inputs of the others are those of the old column.
    have later : ∀ sample, (ways.map fun other => Function.update column way.2 sample other.1) =
        ways.map fun other => column other.1 :=
      fun sample => List.map_congr_left fun other here =>
        Function.update_of_ne (first other here).1.symm _ _
    simp only [shape, if_true, ih rest, later, List.map_cons, note]

/-- Along untangled ways the compressor changes a column as it hears the column's inputs. -/
theorem hear_eq (untangled : Untangled ways) (parameters : Parameters) (state : State)
    (column : Column) :
    hear parameters state (ways.map fun way => column way.1) =
      ((pass parameters ways state column).1,
        ways.map fun way => (pass parameters ways state column).2 way.2) := by
  by_cases empty : ways = []
  · -- Without channels neither of them does anything.
    subst empty
    rfl
  · have some : (ways.map fun way => column way.1) ≠ [] := by simpa using empty
    simp only [hear, some, if_false, pass, empty, tick, shape_column, List.length_map,
      rewrite_untangled untangled, List.map_map]
    -- The magnitudes matter only where they are kept.
    by_cases noting : parameters.statistics ≠ 0
    · simp only [if_pos noting, decide_eq_true noting, shape_noted untangled]
      rfl
    · simp only [if_neg noting]
      rfl

/-- Over a frame the compressor hears the inputs of all columns as they were before it ran. -/
theorem feed_hear (untangled : Untangled ways) (parameters : Parameters) (state : State)
    (columns : List Column) :
    feed (hear parameters) state (columns.map fun column => ways.map fun way => column way.1) =
      ((feed (pass parameters ways) state columns).1,
        (feed (pass parameters ways) state columns).2.map fun column =>
          ways.map fun way => column way.2) :=
  feed_view (pass parameters ways) (fun column => ways.map fun way => column way.1)
    (fun column => ways.map fun way => column way.2) (hear_eq untangled parameters) state columns

end Compressor

namespace Mixer

variable {mixer : Mixer}

/-- The samples of some buffers at every instant of the frame. -/
def voices (mixer : Mixer) (buffers : List Int16) : List (List Int32) :=
  mixer.columns.map fun column => buffers.map fun buffer => column buffer.toInt.toNat

/-- Indices of one buffer in the arena are the same. -/
theorem Holds.index_inj {index other : Int16} (here : mixer.Holds index) (there : mixer.Holds other)
    (same : index.toInt.toNat = other.toInt.toNat) : index = other := by
  -- Neither is negative, so that no sign is lost with the numbers of their buffers.
  have positive := Int16.le_iff_toInt_le.mp here.1
  have positiveToo := Int16.le_iff_toInt_le.mp there.1
  rw [Int16.toInt_zero] at positive positiveToo
  exact Int16.toInt_inj.mp (by omega)

/-- Buffers that nothing was written to have the same samples as before. -/
theorem voices_of_footprint {writes : Nat → Prop} {names : Place → Prop} {after : Mixer}
    (footprint : Footprint writes names mixer after) {buffers : List Int16}
    (away : ∀ buffer ∈ buffers, ∀ instant, instant < mixer.frame →
      ¬writes (buffer.toInt.toNat * mixer.frame + instant)) :
    after.voices buffers = mixer.voices buffers := by
  simp only [voices, columns, Mixdown.columns, footprint.shape.frame, List.map_map]
  refine List.map_congr_left fun instant early => List.map_congr_left fun buffer here => ?_
  -- A cell of a buffer at an instant of the frame is one that nothing was written to.
  have early := List.mem_range.mp early
  simp only [columnAt, footprint.samples _ (away buffer here instant early)]

/-- Channels that have routes have routes back to where they come from. -/
theorem isSome_routes?_self {channels : Nat} {inputs outputs : Vector Int16 maxChannels}
    (routed : (mixer.routes? channels inputs outputs).isSome) :
    (mixer.routes? channels inputs inputs).isSome := by
  rw [isSome_routes?] at routed ⊢
  simp only [List.zip, List.take_zipWith] at routed ⊢
  -- Every input of a channel is an input of a way out of it.
  have single : ∀ input ∈ inputs.toList.take channels, (mixer.segment? input).isSome := by
    intro input there
    rw [← List.map_fst_zip (show (inputs.toList.take channels).length ≤
      (outputs.toList.take channels).length by simp)] at there
    obtain ⟨other, found, rfl⟩ := List.mem_map.mp there
    exact (routed other found).1
  intro way here
  obtain ⟨source, target⟩ := List.of_mem_zip here
  exact ⟨single _ source, single _ target⟩

end Mixer

namespace Command

/-- The command that writes every channel where it reads it. -/
def inPlace : Command → Command
  | .biquad command => .biquad { command with output := command.input }
  | .limiter command => .limiter { command with outputs := command.inputs }
  | .compressor command => .compressor { command with outputs := command.inputs }

/-- What an enabled effect makes of its memory and of the samples of its channels at every instant,
without regard to where they lie. -/
def hear (rate : Nat) : Command → Memory → List (List Int32) → Memory × List (List Int32)
  | .limiter command, .limiter state, inputs =>
    let (state, outputs) := feed (Limiter.hear (command.parameters.settings rate)) state inputs
    (.limiter state, outputs)
  | .compressor command, .compressor state, inputs =>
    let (state, outputs) := feed (Compressor.hear command.parameters) state inputs
    (.compressor state, outputs)
  -- A filter is no effect, and an effect finds no memory of another kind than its own.
  | _, memory, inputs => (memory, inputs)

/-- What an effect leaves when the inputs of all its channels are those of before it ran. -/
structure Heard (command : Command) (before after : Mixer) : Prop where
  shape : after.SameShape before
  /-- An effect that is enabled goes on from the memory that it finds. -/
  worked : command.enabled → ∀ held, command.memory? before.states = some held →
    command.memory? after.states =
        some (command.hear before.rate (command.begin held) (before.voices command.sources)).1 ∧
      after.voices command.targets =
        (command.hear before.rate (command.begin held) (before.voices command.sources)).2
  /-- One that is not copies its inputs, and has no part in its memory. -/
  copied : command.enabled = false →
    after.voices command.targets = before.voices command.sources ∧ after.states = before.states
  others : ∀ place, ¬command.Keeps place → after.states.read place = before.states.read place

/-- The ways of a command's channels. -/
def ways (command : Command) : List (Nat × Nat) :=
  (command.sources.zip command.targets).map fun way => (way.1.toInt.toNat, way.2.toInt.toNat)

variable {mixer after : Mixer} {command : Command}

/-- Every source of a command has a target. -/
theorem length_sources (command : Command) : command.sources.length = command.targets.length := by
  cases command <;> simp [sources, targets]

/-- The ways of an effect are those that its routes follow. -/
theorem ways_limiter (command : LimiterCommand) : (limiter command).ways = command.ways := by
  simp only [ways, LimiterCommand.ways, Mixer.waysOf, List.zip, List.take_zipWith, sources, targets]

/-- The ways of an effect are those that its routes follow. -/
theorem ways_compressor (command : CompressorCommand) :
    (compressor command).ways = command.ways := by
  simp only [ways, CompressorCommand.ways, Mixer.waysOf, List.zip, List.take_zipWith, sources,
    targets]

/-- The inputs of a command are read at the first buffers of its ways. -/
theorem voices_sources (mixer : Mixer) (command : Command) :
    mixer.voices command.sources =
      mixer.columns.map fun column => command.ways.map fun way => column way.1 := by
  -- The sources are the first parts of the ways, as there are as many targets.
  have firsts := List.map_fst_zip (Nat.le_of_eq command.length_sources)
  simp only [Mixer.voices, ways, List.map_map]
  conv => lhs; rw [← firsts]
  simp only [List.map_map]
  rfl

/-- The outputs of a command are written at the second buffers of its ways. -/
theorem voices_targets (mixer : Mixer) (command : Command) :
    mixer.voices command.targets =
      mixer.columns.map fun column => command.ways.map fun way => column way.2 := by
  -- The targets are the second parts of the ways, as there are as many sources.
  have seconds := List.map_snd_zip (Nat.le_of_eq command.length_sources.symm)
  simp only [Mixer.voices, ways, List.map_map]
  conv => lhs; rw [← seconds]
  simp only [List.map_map]
  rfl

/-- An effect with room has routes along its ways, all of which lie in the arena. -/
theorem routes?_eq_some (effect : command.isEffect) (routed : command.Routed mixer) :
    command.routes? mixer = some (command.ways.map (Route.between mixer.frame)) ∧
      Mixdown.Within mixer.arena.size mixer.frame command.ways := by
  -- Routes that are found are those of the ways, and each lies inside the arena.
  cases command with
  | biquad command => cases effect
  | limiter command =>
    obtain ⟨routes, found⟩ := Option.isSome_iff_exists.mp routed
    obtain ⟨rfl, within⟩ := Mixer.routes?_eq_some found
    rw [ways_limiter]
    exact ⟨found, within⟩
  | compressor command =>
    obtain ⟨routes, found⟩ := Option.isSome_iff_exists.mp routed
    obtain ⟨rfl, within⟩ := Mixer.routes?_eq_some found
    rw [ways_compressor]
    exact ⟨found, within⟩

/-- The ways of an effect with room are as untangled as its indices, none of which is negative. -/
theorem untangled_ways (effect : command.isEffect) (routed : command.Routed mixer)
    (untangled : Untangled (command.sources.zip command.targets)) : Untangled command.ways := by
  have holds := (routes?_leads (routes?_eq_some effect routed).1).1
  -- Buffers of one number would have one index, which the untangled ways rule out.
  refine List.pairwise_map.mpr (untangled.imp_of_mem fun {earlier later} first second apart => ?_)
  obtain ⟨-, writes⟩ := List.of_mem_zip first
  obtain ⟨reads, writesToo⟩ := List.of_mem_zip second
  have target := holds _ (List.mem_append_right _ writes)
  exact ⟨mt (target.index_inj (holds _ (List.mem_append_left _ reads))) apart.1,
    mt (target.index_inj (holds _ (List.mem_append_right _ writesToo))) apart.2⟩

/-- An enabled effect hears along untangled ways what its device does to the columns. -/
theorem hear_eq (effect : command.isEffect) (enabled : command.enabled) {states : States}
    {held : Memory} (live : command.memory? states = some held)
    (untangled : Untangled command.ways) (rate : Nat) (columns : List Column) :
    command.hear rate (command.begin held)
        (columns.map fun column => command.ways.map fun way => column way.1) =
      ((feed (command.device rate) (command.begin held) columns).1,
        (feed (command.device rate) (command.begin held) columns).2.map fun column =>
          command.ways.map fun way => column way.2) := by
  obtain ⟨place, placed, found⟩ := Option.bind_eq_some_iff.mp live
  cases command with
  | biquad command => cases effect
  | limiter command =>
    -- The device is the limiter's own tick, lifted to the memory that stands for its state.
    obtain ⟨index, -, rfl⟩ := Option.map_eq_some_iff.mp placed
    obtain ⟨state, -, rfl⟩ := Option.map_eq_some_iff.mp found
    have enabled : command.enabled = true := enabled
    have lifted : feed ((limiter command).device rate) (.limiter state) columns = _ :=
      feed_lift Memory.limiter (Limiter.tick (command.parameters.settings rate) command.ways)
        (fun state column => by simp [device, enabled]) state columns
    rw [ways_limiter] at untangled ⊢
    simp only [begin, lifted, hear, Limiter.feed_hear untangled]
  | compressor command =>
    obtain ⟨index, -, rfl⟩ := Option.map_eq_some_iff.mp placed
    obtain ⟨state, -, rfl⟩ := Option.map_eq_some_iff.mp found
    have enabled : command.enabled = true := enabled
    have lifted : feed ((compressor command).device rate) (.compressor (command.begin state))
        columns = _ :=
      feed_lift Memory.compressor (Compressor.pass command.parameters command.ways)
        (fun state column => by simp [device, enabled]) (command.begin state) columns
    rw [ways_compressor] at untangled ⊢
    simp only [begin, lifted, hear, Compressor.feed_hear untangled]

/-- An effect that is not enabled copies along its ways, with or without a memory. -/
theorem process_copied (effect : command.isEffect) (routed : command.Routed mixer)
    (disabled : command.enabled = false) :
    ∃ samples, command.process mixer = .ok { mixer with arena := { mixer.arena with samples } } ∧
      samples.size = mixer.arena.size ∧
      Mixdown.columns samples mixer.frame = mixer.columns.map (rewrite id command.ways) := by
  obtain ⟨found, within⟩ := routes?_eq_some effect routed
  obtain ⟨samples, copied, size, cells⟩ := mixer.arena.copyRoutes_eq within
  refine ⟨samples, ?_, size, cells⟩
  -- Copying comes before the memory is looked for.
  rw [process_effect effect, runEffect, found]
  simp only [disabled, Bool.false_eq_true, if_false, copied, ok_bind, pure_eq_ok]

/-- An effect whose ways are untangled runs on the inputs of all its channels as they were. -/
theorem process_heard (effect : command.isEffect) (routed : command.Routed mixer)
    (live : command.enabled → command.memory? mixer.states ≠ none)
    (untangled : Untangled (command.sources.zip command.targets)) :
    ∃ after, command.process mixer = .ok after ∧ command.Heard mixer after := by
  have untangled := untangled_ways effect routed untangled
  cases enabled : command.enabled with
  | false =>
    obtain ⟨samples, ran, size, cells⟩ := process_copied effect routed enabled
    refine ⟨_, ran, ⟨rfl, rfl, rfl, rfl, size⟩, ?_, fun _ => ⟨?_, rfl⟩, fun _ _ => rfl⟩
    · simp [enabled]
    · -- Copies are outputs that were rewritten without a change.
      rw [voices_targets, voices_sources, Mixer.columns, cells, List.map_map]
      refine List.map_congr_left fun column _ => ?_
      exact rewrite_untangled untangled
  | true =>
    obtain ⟨held, found⟩ := Option.ne_none_iff_exists'.mp (live enabled)
    obtain ⟨place, placed, read⟩ := Option.bind_eq_some_iff.mp found
    -- The memory of an effect has no words that a precision leaves unused.
    have settled : command.Settled (command.begin held) := by
      cases command with
      | biquad command => cases effect
      | limiter command => trivial
      | compressor command => trivial
    -- The run feeds whole columns to the device, of which the effect hears its own channels.
    obtain ⟨-, after, ran, done⟩ := process_eq placed read routed settled
    refine ⟨after, ran, done.shape, fun _ other here => ?_, by simp [enabled], fun other away => ?_⟩
    · obtain rfl : held = other := Option.some.inj (found.symm.trans here)
      rw [voices_sources, hear_eq effect enabled found untangled, voices_targets, done.columns]
      exact ⟨by simp [memory?, placed, done.memory], rfl⟩
    · refine done.others other ?_
      rintro rfl
      exact away placed

section InPlace

variable (command)

/-- In place a command reads what it reads elsewhere. -/
@[simp] theorem inPlace_sources : command.inPlace.sources = command.sources := by
  cases command <;> rfl

/-- In place a command writes what it reads. -/
@[simp] theorem inPlace_targets : command.inPlace.targets = command.sources := by
  cases command with
  | biquad command => simp [inPlace, targets, sources]
  | limiter command => rfl
  | compressor command => rfl

/-- In place a command is an effect if it is one elsewhere. -/
@[simp] theorem inPlace_isEffect : command.inPlace.isEffect = command.isEffect := by
  cases command <;> rfl

/-- In place a command is enabled as it is elsewhere. -/
@[simp] theorem inPlace_enabled : command.inPlace.enabled = command.enabled := by
  cases command <;> rfl

/-- In place a command keeps its memory where it keeps it elsewhere. -/
@[simp] theorem inPlace_place? : command.inPlace.place? = command.place? := by
  cases command <;> rfl

/-- In place a command hears as it does elsewhere. -/
@[simp] theorem inPlace_hear (rate : Nat) : command.inPlace.hear rate = command.hear rate := by
  funext memory inputs
  cases command <;> cases memory <;> rfl

/-- In place an effect begins as it does elsewhere. -/
theorem inPlace_begin (effect : command.isEffect) (held : Memory) :
    command.inPlace.begin held = command.begin held := by
  cases command with
  | biquad command => cases effect
  | limiter command => rfl
  | compressor command =>
    cases held with
    | biquad state => rfl
    | limiter state => rfl
    | compressor state =>
      -- Where a compressor begins depends on whether there are channels, not on their buffers.
      have channels : (inPlace (.compressor command)).ways.length = command.ways.length := by
        rw [← ways_compressor, ways, ways]
        simp [length_sources]
      simp only [inPlace, ways_compressor] at channels
      simp only [inPlace, begin, CompressorCommand.begin, Compressor.restart_congr channels]
      rfl

end InPlace

/-- An effect with room has room in place. -/
theorem inPlace_routed (effect : command.isEffect) (routed : command.Routed mixer) :
    command.inPlace.Routed mixer := by
  cases command with
  | biquad command => cases effect
  | limiter command => exact Mixer.isSome_routes?_self routed
  | compressor command => exact Mixer.isSome_routes?_self routed

/-- A command leaves the buffers that it reads and does not write. -/
theorem voices_sources_eq (effect : command.isEffect) (routed : command.Routed mixer)
    (apart : ∀ source ∈ command.sources, source ∉ command.targets)
    (ran : command.process mixer = .ok after) :
    after.voices command.sources = mixer.voices command.sources := by
  have holds := (routes?_leads (routes?_eq_some effect routed).1).1
  refine Mixer.voices_of_footprint (footprint ran) fun source here instant early => ?_
  rintro ⟨target, there, held, low, high⟩
  -- A position of both buffers would make them one, and their indices the same.
  obtain ⟨moment, equal⟩ := Nat.exists_eq_add_of_le low
  have buffers := (position_inj early (by omega) equal).1
  obtain rfl := (holds _ (List.mem_append_left _ here)).index_inj held buffers
  exact apart _ here there

/-- What an effect hears does not depend on where it writes, so that it leaves the same in place. -/
theorem Heard.eq_inPlace {here there : Mixer} (heard : command.Heard mixer there)
    (heardHere : command.inPlace.Heard mixer here) (effect : command.isEffect)
    (live : command.enabled → command.memory? mixer.states ≠ none) :
    there.voices command.targets = here.voices command.sources ∧ there.states = here.states := by
  -- What was heard or copied is the same inputs, from the same memory.
  cases enabled : command.enabled with
  | false =>
    obtain ⟨outputs, states⟩ := heard.copied enabled
    obtain ⟨outputsHere, statesHere⟩ := heardHere.copied (by simpa using enabled)
    simp only [inPlace_targets, inPlace_sources] at outputsHere
    exact ⟨outputs.trans outputsHere.symm, states.trans statesHere.symm⟩
  | true =>
    obtain ⟨held, found⟩ := Option.ne_none_iff_exists'.mp (live enabled)
    obtain ⟨memory, outputs⟩ := heard.worked enabled held found
    obtain ⟨memoryHere, outputsHere⟩ := heardHere.worked (by simpa using enabled) held
      (by simpa [memory?] using found)
    simp only [inPlace_targets, inPlace_sources, inPlace_hear, inPlace_begin command effect]
      at memoryHere outputsHere
    refine ⟨outputs.trans outputsHere.symm, States.eq_of_read fun place => ?_⟩
    -- The memory is the same at the command's own place, and any other is left by both.
    by_cases own : command.place? = some place
    · have same := memory.trans memoryHere.symm
      simpa only [memory?, inPlace_place?, own, Option.bind_some] using same
    · rw [heard.others place own, heardHere.others place (by simpa [Keeps] using own)]

/--
An effect with room, enabled with a live memory or not enabled, runs. When no channel writes what a
later one reads or writes, its outputs and its memory are those of inputs read before it ran. When
all of its buffers are apart, it leaves its inputs, and gives in place the same outputs and states.
-/
theorem process_untangled (effect : command.isEffect) (routed : command.Routed mixer)
    (live : command.enabled → command.memory? mixer.states ≠ none) :
    (Untangled (command.sources.zip command.targets) →
      ∃ after, command.process mixer = .ok after ∧ command.Heard mixer after) ∧
    ((command.sources ++ command.targets).Nodup →
      ∃ here there, command.inPlace.process mixer = .ok here ∧ command.process mixer = .ok there ∧
        there.voices command.targets = here.voices command.sources ∧
        there.states = here.states ∧
        there.voices command.sources = mixer.voices command.sources) := by
  refine ⟨process_heard effect routed live, fun distinct => ?_⟩
  obtain ⟨single, singleToo, apart⟩ := List.nodup_append.mp distinct
  have apart : ∀ source ∈ command.sources, source ∉ command.targets :=
    fun source reads writes => apart source reads source writes rfl
  have effectToo : command.inPlace.isEffect := by rwa [inPlace_isEffect]
  -- Either run hears the inputs of the one mixer, since the ways back to them are untangled too.
  obtain ⟨here, ranHere, heardHere⟩ := process_heard effectToo (inPlace_routed effect routed)
    (by simpa [memory?] using live) (by simpa using untangled_self single)
  obtain ⟨there, ran, heard⟩ := process_heard effect routed live (untangled_zip singleToo apart)
  obtain ⟨outputs, states⟩ := heard.eq_inPlace heardHere effect live
  exact ⟨here, there, ranHere, ran, outputs, states, voices_sources_eq effect routed apart ran⟩

/-- A limiter hears one buffer for two channels, the second in place, and then two buffers apart. -/
theorem process_untangled_shared :
    let mixer : Mixer :=
      ⟨⟨4, 2, #[100, 200, 300, 400, 0, 0, 7, 8]⟩, 2, 48000, ⟨#[], #[.initial], #[]⟩⟩
    let parameters := { Limiter.Parameters.zero with channels := 2 }
    let shared : Command := .limiter ⟨parameters, .replicate _ 1, #v[2, 1, 0, 0, 0, 0], some 0, true⟩
    let apart : Command :=
      .limiter ⟨parameters, #v[0, 1, 0, 0, 0, 0], #v[2, 3, 0, 0, 0, 0], some 0, true⟩
    ((shared.Routed mixer ∧ (shared.enabled → shared.memory? mixer.states ≠ none) ∧
        Untangled (shared.sources.zip shared.targets)) ∧
      (apart.Routed mixer ∧ (apart.enabled → apart.memory? mixer.states ≠ none) ∧
        (apart.sources ++ apart.targets).Nodup)) ∧
      (∃ after, shared.process mixer = .ok after ∧
        shared.memory? after.states =
          some (shared.hear 48000 (.limiter .initial) [[300, 300], [400, 400]]).1 ∧
        after.voices [2, 1] =
          (shared.hear 48000 (.limiter .initial) [[300, 300], [400, 400]]).2) ∧
      ∃ here there, apart.inPlace.process mixer = .ok here ∧ apart.process mixer = .ok there ∧
        there.voices [2, 3] = here.voices [0, 1] ∧ there.states = here.states ∧
        there.voices [0, 1] = [[100, 300], [200, 400]] := by
  intro mixer parameters shared apart
  have routed : shared.Routed mixer ∧ apart.Routed mixer := by
    constructor <;> (change Option.isSome _ = true; decide +kernel)
  have found : shared.memory? mixer.states = some (.limiter .initial) ∧
      apart.memory? mixer.states = some (.limiter .initial) :=
    ⟨rfl, rfl⟩
  have liveShared : shared.enabled → shared.memory? mixer.states ≠ none := by simp [found.1]
  have liveApart : apart.enabled → apart.memory? mixer.states ≠ none := by simp [found.2]
  have untangled : Untangled (shared.sources.zip shared.targets) := by decide +kernel
  have distinct : (apart.sources ++ apart.targets).Nodup := by decide +kernel
  obtain ⟨after, ran, heard⟩ := (process_untangled rfl routed.1 liveShared).1 untangled
  obtain ⟨here, there, ranHere, ranThere, outputs, states, inputs⟩ :=
    (process_untangled rfl routed.2 liveApart).2 distinct
  -- What the theorem says of any memory and any inputs is read at those of this mixer.
  obtain ⟨memory, voices⟩ := heard.worked rfl _ found.1
  have before : mixer.voices shared.sources = [[300, 300], [400, 400]] := by decide +kernel
  have still : mixer.voices apart.sources = [[100, 300], [200, 400]] := by decide +kernel
  rw [before] at memory voices
  rw [still] at inputs
  exact ⟨⟨⟨routed.1, liveShared, untangled⟩, routed.2, liveApart, distinct⟩,
    ⟨after, ran, memory, voices⟩, here, there, ranHere, ranThere, outputs, states, inputs⟩

end Command

end Mixdown
