import Mixdown.Proofs.Footprint

/-! What a command does depends on the samples that it reads and on its own memory only. -/

namespace Mixdown

/-- Two computations end alike: in the same fault, or in values that are related. -/
inductive Paired (relation : α → β → Prop) : Except ε α → Except ε β → Prop where
  | fault (fault : ε) : Paired relation (.error fault) (.error fault)
  | value {left : α} {right : β} (related : relation left right) :
    Paired relation (.ok left) (.ok right)

namespace Paired

variable {relation : α → β → Prop}

/-- Computations that go on alike from related values end alike. -/
theorem bind {last : γ → δ → Prop} {left : Except ε α} {right : Except ε β}
    {next : α → Except ε γ} {other : β → Except ε δ} (paired : Paired relation left right)
    (goes : ∀ a b, relation a b → Paired last (next a) (other b)) :
    Paired last (left >>= next) (right >>= other) := by
  cases paired with
  | fault fault => exact .fault fault
  | value related => exact goes _ _ related

/-- A computation that is carried out twice ends as it does, and goes on from the same value. -/
theorem bind_same {last : γ → δ → Prop} {run : Except ε α} {next : α → Except ε γ}
    {other : α → Except ε δ} (goes : ∀ a, Paired last (next a) (other a)) :
    Paired last (run >>= next) (run >>= other) := by
  cases run with
  | error fault => exact .fault fault
  | ok value => exact goes value

/-- What goes with a fault is the same fault. -/
theorem eq_error {fault : ε} {right : Except ε β} (paired : Paired relation (.error fault) right) :
    right = .error fault := by
  cases paired with
  | fault => rfl

/-- What goes with a value is a related value. -/
theorem exists_of_ok {left : α} {right : Except ε β} (paired : Paired relation (.ok left) right) :
    ∃ value, right = .ok value ∧ relation left value := by
  cases paired with
  | value related => exact ⟨_, rfl, related⟩

end Paired

/-- A route reads as many samples as a frame has, and none of them in a region. -/
structure Route.Avoids (frame : Nat) (region : Nat → Prop) (route : Route) : Prop where
  input : route.input.stop = route.input.start + frame
  away : ∀ instant, instant < frame → ¬region (route.input.start + instant)

section Loops

variable {region : Nat → Prop} {samples others : Array Int32} {routes : List Route} {frame : Nat}

/-- Samples outside the region are fetched alike. -/
theorem Confined.fetch_eq (confined : Confined region samples others) {index : Nat}
    (away : ¬region index) : fetch others index = fetch samples index := by
  have same := confined.outside index away
  cases held : samples[index]? with
  | some sample => rw [fetch_eq_ok held, fetch_eq_ok (same.trans held)]
  | none =>
    -- The index is beyond the end of both.
    have beyond := Array.getElem?_eq_none_iff.mp held
    have size := confined.size
    rw [fetch, fetch, dif_neg (by omega), dif_neg (by omega)]

/-- The same sample is stored in both at the same index, inside the region or outside of it. -/
theorem Confined.store_paired (confined : Confined region samples others) (index : Nat)
    (sample : Int32) :
    Paired (Confined region) (store samples index sample) (store others index sample) := by
  have size := confined.size
  by_cases inside : index < samples.size
  · rw [store_eq_ok inside, store_eq_ok (by omega)]
    refine .value ⟨by simpa using size, fun position away => ?_⟩
    rw [Array.getElem?_setIfInBounds, Array.getElem?_setIfInBounds, size,
      confined.outside position away]
  · rw [store, store, dif_neg inside, dif_neg (by omega)]
    exact .fault _

/-- Both have the same state, and samples that differ in the region only. -/
def Beside (region : Nat → Prop) (left right : σ × Array Int32) : Prop :=
  left.1 = right.1 ∧ Confined region left.2 right.2

/-- Steps that treat both alike at every instant of a frame do so over the frame. -/
theorem overInstants_paired {step : Nat → σ → Array Int32 → Except Fault (σ × Array Int32)}
    (steps : ∀ instant, instant < frame → ∀ state samples others, Confined region samples others →
      Paired (Beside region) (step instant state samples) (step instant state others))
    (confined : Confined region samples others) (state : σ) :
    Paired (Beside region) (overInstants step frame 0 state samples)
      (overInstants step frame 0 state others) := by
  -- The instants that are left end with the frame, wherever the loop has got to.
  have general : ∀ (count instant : Nat) (state : σ) (samples others : Array Int32),
      instant + count = frame → Confined region samples others →
        Paired (Beside region) (overInstants step count instant state samples)
          (overInstants step count instant state others) := by
    intro count
    induction count with
    | zero => exact fun _ state _ _ _ confined => .value ⟨rfl, confined⟩
    | succ count ih =>
      intro instant state samples others total confined
      refine (steps instant (by omega) state samples others confined).bind ?_
      rintro ⟨state, samples⟩ ⟨_, others⟩ ⟨rfl, confined⟩
      exact ih (instant + 1) state samples others (by omega) confined
  exact general frame 0 state samples others (by omega) confined

/-- Peaks are detected alike. -/
theorem Limiter.detect_congr (confined : Confined region samples others) {instant : Nat}
    (away : ∀ route ∈ routes, ¬region (route.input.start + instant)) (channel : Nat)
    (peaks : Vector Single maxChannels) (peak : Single) :
    detect others instant channel routes peaks peak =
      detect samples instant channel routes peaks peak := by
  -- All inputs lie outside of the region, so each peak is found from the same samples.
  induction routes generalizing channel peaks peak with
  | nil => rfl
  | cons route routes ih =>
    have later := fun other here => away other (List.mem_cons_of_mem route here)
    simp only [detect, confined.fetch_eq (away route (by simp)), ih later]

/-- A limiter scales both alike. -/
theorem Limiter.scale_paired (confined : Confined region samples others) {instant : Nat}
    (away : ∀ route ∈ routes, ¬region (route.input.start + instant)) (gain makeup : Single) :
    Paired (Confined region) (scale gain makeup instant routes samples)
      (scale gain makeup instant routes others) := by
  -- What is read is the same on both sides, and what is stored keeps them alike outside.
  induction routes generalizing samples others with
  | nil => exact .value confined
  | cons route routes ih =>
    have later := fun other here => away other (List.mem_cons_of_mem route here)
    simp only [scale, confined.fetch_eq (away route (by simp))]
    refine .bind_same fun sample => ?_
    exact (confined.store_paired _ _).bind fun _ _ stored => ih stored later

/-- A limiter's run treats both alike. -/
theorem Limiter.apply_paired (confined : Confined region samples others)
    (avoids : ∀ route ∈ routes, route.Avoids frame region) (parameters : Parameters) (rate : Nat)
    (state : State) :
    Paired (Beside region) (apply parameters rate routes frame state samples)
      (apply parameters rate routes frame state others) := by
  -- At each instant both sides hear the same, find the same gain and store through the same routes.
  refine overInstants_paired (fun instant early state samples others confined => ?_) confined state
  have away := fun route here => (avoids route here).away instant early
  simp only [step, detect_congr confined away]
  refine .bind_same ?_
  rintro ⟨peaks, peak⟩
  exact (scale_paired confined away _ _).bind fun _ _ scaled => .value ⟨rfl, scaled⟩

/-- Energies are summed alike. -/
theorem Compressor.energy_congr (confined : Confined region samples others) {instant : Nat}
    (away : ∀ route ∈ routes, ¬region (route.input.start + instant)) (sum : Single) :
    energy others instant routes sum = energy samples instant routes sum := by
  -- All inputs lie outside of the region, so the same samples are summed.
  induction routes generalizing sum with
  | nil => rfl
  | cons route routes ih =>
    have later := fun other here => away other (List.mem_cons_of_mem route here)
    simp only [energy, confined.fetch_eq (away route (by simp)), ih later]

/-- A compressor scales both alike, and notes the same samples. -/
theorem Compressor.scale_paired (confined : Confined region samples others) {instant : Nat}
    (away : ∀ route ∈ routes, ¬region (route.input.start + instant)) (gain : Single)
    (noting : Bool) (channel : Nat) (noted : Vector Single maxChannels) :
    Paired (Beside region) (scale gain noting instant channel routes noted samples)
      (scale gain noting instant channel routes noted others) := by
  -- The levels that are noted come from the inputs, and are therefore the same on both sides.
  induction routes generalizing samples others channel noted with
  | nil => exact .value ⟨rfl, confined⟩
  | cons route routes ih =>
    have later := fun other here => away other (List.mem_cons_of_mem route here)
    simp only [scale, confined.fetch_eq (away route (by simp))]
    refine .bind_same fun sample => ?_
    exact (confined.store_paired _ _).bind fun _ _ stored => ih stored later _ _

/-- A compressor's run treats both alike. -/
theorem Compressor.apply_paired (confined : Confined region samples others)
    (avoids : ∀ route ∈ routes, route.Avoids frame region) (parameters : Parameters)
    (state : State) :
    Paired (Beside region) (apply parameters routes frame state samples)
      (apply parameters routes frame state others) := by
  -- Without channels nothing is done on either side.
  simp only [apply]
  split
  · exact .value ⟨rfl, confined⟩
  · refine overInstants_paired (fun instant early state samples others confined => ?_) confined _
    have away := fun route here => (avoids route here).away instant early
    simp only [step, energy_congr confined away]
    refine .bind_same fun sum => (scale_paired confined away _ _ _ _).bind ?_
    rintro ⟨noted, samples⟩ ⟨_, others⟩ ⟨rfl, scaled⟩
    exact .value ⟨rfl, scaled⟩

end Loops

/-- Two arenas have one shape, and differ in a region only. -/
structure Arena.Beside (region : Nat → Prop) (left right : Arena) : Prop where
  buffers : right.buffers = left.buffers
  frames : right.frames = left.frames
  samples : Confined region left.samples right.samples

namespace Arena

variable {region : Nat → Prop} {left right : Arena} {routes : List Route} {frame : Nat}

/-- A segment that lies outside the region is sliced alike. -/
theorem Beside.slice_eq (beside : left.Beside region right) {route : Route}
    (avoids : route.Avoids frame region) : right.slice route.input = left.slice route.input := by
  -- A slice is as long as its arena allows, and the two arenas are of one size.
  have size := beside.samples.size
  apply List.ext_getElem?
  intro offset
  simp only [slice, Array.getElem?_toList, Array.getElem?_extract, avoids.input, size]
  split
  · next early => exact beside.samples.outside _ (avoids.away offset (by omega))
  · rfl

/-- The same items are written one behind the other in both. -/
theorem write_paired {samples others : Array Int32} (confined : Confined region samples others)
    (start : Nat) (items : List Int32) :
    Paired (Confined region) (write samples start items) (write others start items) := by
  induction items generalizing samples others start with
  | nil => exact .value confined
  | cons item items ih =>
    exact (confined.store_paired start item).bind fun _ _ stored => ih stored (start + 1)

/-- The same items are spliced into both. -/
theorem Beside.splice_paired (beside : left.Beside region right) (start : Nat)
    (items : List Int32) :
    Paired (Arena.Beside region) (left.splice start items) (right.splice start items) := by
  -- Both sides fault over the same length, or write the same items at the same place.
  have size : right.size = left.size := beside.samples.size
  simp only [splice, size]
  split
  · exact .fault _
  · refine (write_paired beside.samples start items).bind fun _ _ written => ?_
    exact .value ⟨beside.buffers, beside.frames, written⟩

/-- Routes that read outside the region are copied alike. -/
theorem Beside.copyRoutes_paired (beside : left.Beside region right)
    (avoids : ∀ route ∈ routes, route.Avoids frame region) :
    Paired (Arena.Beside region) (left.copyRoutes routes) (right.copyRoutes routes) := by
  -- Each route reads the same on both sides, before it writes to where the next ones may read.
  induction routes generalizing left right with
  | nil => exact .value beside
  | cons route routes ih =>
    have later := fun other here => avoids other (List.mem_cons_of_mem route here)
    simp only [copyRoutes, beside.slice_eq (avoids route (by simp))]
    exact (beside.splice_paired _ _).bind fun _ _ spliced => ih spliced later

end Arena

/-- An item that is stored at one index of two tables is in both, if the index is in both. -/
theorem getElem?_set_congr {left right : Array α} {index : Nat} {view : α → β}
    (same : right[index]?.map view = left[index]?.map view) (item : α) :
    ((right.setIfInBounds index item)[index]?).map view =
      ((left.setIfInBounds index item)[index]?).map view := by
  have inside : index < right.size ↔ index < left.size := by
    -- Where one table ends the other holds nothing either.
    have absent := congrArg (· = none) same
    simp only [Option.map_eq_none_iff, Array.getElem?_eq_none_iff, eq_iff_iff] at absent
    omega
  rw [Array.getElem?_setIfInBounds_self, Array.getElem?_setIfInBounds_self]
  simp only [inside]

/-- A memory that is written at a place where both states hold the same is held by both. -/
theorem States.read_write_congr {left right : States} {place : Place}
    (same : right.read place = left.read place) (memory : Memory) :
    (right.write place memory).read place = (left.write place memory).read place := by
  -- A memory of another kind is not written, and one of the same kind wherever there was one.
  cases place with
  | biquad index =>
    cases memory with
    | biquad state => exact getElem?_set_congr same state
    | limiter state => exact same
    | compressor state => exact same
  | limiter index =>
    cases memory with
    | biquad state => exact same
    | limiter state => exact getElem?_set_congr same state
    | compressor state => exact same
  | compressor index =>
    cases memory with
    | biquad state => exact same
    | limiter state => exact same
    | compressor state => exact getElem?_set_congr same state

namespace Mixer

variable {writes : Nat → Prop} {names : Place → Prop} {left right : Mixer}

/-- Mixers that differ by a footprint have arenas that do. -/
theorem Footprint.arena (footprint : Footprint writes names left right) :
    left.arena.Beside writes right.arena :=
  ⟨footprint.shape.buffers, footprint.shape.frames, footprint.shape.size, footprint.samples⟩

/-- Arenas that differ in the written region may take the places of both mixers' own. -/
theorem Footprint.replace (footprint : Footprint writes names left right) {arena other : Arena}
    (beside : arena.Beside writes other) :
    Footprint writes names { left with arena } { right with arena := other } where
  shape := ⟨footprint.shape.frame, footprint.shape.rate, beside.buffers, beside.frames,
    beside.samples.size⟩
  samples := beside.samples.outside
  sizes := footprint.sizes
  states := footprint.states

/-- One memory may be written into both mixers at a place where they hold the same. -/
theorem Footprint.write (footprint : Footprint writes names left right) {place : Place}
    (same : right.states.read place = left.states.read place) (memory : Memory) :
    Footprint writes names { left with states := left.states.write place memory }
      { right with states := right.states.write place memory } where
  shape := ⟨footprint.shape.frame, footprint.shape.rate, footprint.shape.buffers,
    footprint.shape.frames, footprint.shape.size⟩
  samples := footprint.samples
  sizes := ((right.states.write_sameSizes place memory).trans footprint.sizes).trans
    (left.states.write_sameSizes place memory).symm
  states other away := by
    by_cases own : other = place
    · subst own
      exact States.read_write_congr same memory
    · rw [States.read_write_ne _ own, States.read_write_ne _ own, footprint.states other away]

end Mixer

namespace Command

variable {writes : Nat → Prop} {names : Place → Prop} {left right : Mixer} {command : Command}

/-- The route of a filter depends on the shape only. -/
theorem route?_of_shape (shape : right.SameShape left) (command : BiquadCommand) :
    command.route? right = command.route? left := by
  simp only [BiquadCommand.route?, Mixer.segment?_of_shape shape, shape.frame]

/-- The routes of a command depend on the shape only. -/
theorem routes?_of_shape (shape : right.SameShape left) (command : Command) :
    command.routes? right = command.routes? left := by
  cases command with
  | biquad command => simp only [routes?, route?_of_shape shape]
  | limiter command => exact Mixer.routes?_of_shape shape _ _ _
  | compressor command => exact Mixer.routes?_of_shape shape _ _ _

/-- A filter that neither reads what differs nor remembers it treats both mixers alike. -/
theorem process_paired_biquad {command : BiquadCommand}
    (footprint : Mixer.Footprint writes names left right)
    (avoids : ∀ routes, (biquad command).routes? left = some routes →
      ∀ route ∈ routes, route.Avoids left.frame writes)
    (same : ∀ place, (biquad command).Keeps place →
      right.states.read place = left.states.read place) :
    Paired (Mixer.Footprint writes names) (command.process left) (command.process right) := by
  -- Both filters find the same state and the same route, and stop where either is missing.
  simp only [BiquadCommand.process]
  cases placed : command.state with
  | none => exact .value footprint
  | some handle =>
    have own := same (.biquad handle) (by simp [Keeps, place?, placed])
    have found : right.states.biquad[handle]? = left.states.biquad[handle]? :=
      Option.map_injective (fun _ _ => Memory.biquad.inj) own
    simp only [found, route?_of_shape footprint.shape]
    cases left.states.biquad[handle]? with
    | none => exact .value footprint
    | some held =>
      cases reached : command.route? left with
      | none => exact .value (footprint.write own (.biquad _))
      | some route =>
        have away := avoids [route] (by simp [routes?, reached]) route (by simp)
        simp only [footprint.arena.slice_eq away]
        -- The kernel runs once on what is heard, and its items are put into both arenas.
        refine .bind_same ?_
        rintro ⟨state, items⟩
        refine (footprint.arena.splice_paired route.output.start items).bind ?_
        exact fun _ _ beside => .value ((footprint.write own (.biquad state)).replace beside)

/-- What an effect makes of samples that differ outside its inputs differs there only. -/
theorem work_paired (footprint : Mixer.Footprint writes names left right) {routes : List Route}
    (avoids : ∀ route ∈ routes, route.Avoids left.frame writes) (command : Command)
    (held : Memory) :
    Paired (Beside writes) (command.work left routes held) (command.work right routes held) := by
  -- What the kernels leave of the memory is the same on both sides.
  have confined := footprint.arena.samples
  simp only [work, footprint.shape.frame, footprint.shape.rate]
  split
  · refine (Limiter.apply_paired confined avoids _ _ _).bind ?_
    rintro ⟨state, samples⟩ ⟨_, others⟩ ⟨rfl, limited⟩
    exact .value ⟨rfl, limited⟩
  · refine (Compressor.apply_paired confined avoids _ _).bind ?_
    rintro ⟨state, samples⟩ ⟨_, others⟩ ⟨rfl, compressed⟩
    exact .value ⟨rfl, compressed⟩
  · exact .value ⟨rfl, confined⟩

/-- An effect that neither reads what differs nor remembers it treats both mixers alike. -/
theorem process_paired_effect (effect : command.isEffect)
    (footprint : Mixer.Footprint writes names left right)
    (avoids : ∀ routes, command.routes? left = some routes →
      ∀ route ∈ routes, route.Avoids left.frame writes)
    (same : ∀ place, command.Keeps place → right.states.read place = left.states.read place) :
    Paired (Mixer.Footprint writes names) (command.process left) (command.process right) := by
  -- Both effects find the same routes, and then the same memory, or stop there.
  rw [process_effect effect, process_effect effect]
  simp only [runEffect, routes?_of_shape footprint.shape]
  cases reached : command.routes? left with
  | none => exact .value footprint
  | some routes =>
    simp only
    split
    · cases placed : command.place? with
      | none => exact .value footprint
      | some place =>
        have own := same place placed
        simp only [own]
        cases left.states.read place with
        | none => exact .value footprint
        | some held =>
          refine (work_paired footprint (avoids routes reached) command held).bind ?_
          rintro ⟨memory, samples⟩ ⟨_, others⟩ ⟨rfl, worked⟩
          exact .value ((footprint.write own memory).replace
            ⟨footprint.shape.buffers, footprint.shape.frames, worked⟩)
    · -- An effect that is not enabled copies, whatever its memory holds.
      refine (footprint.arena.copyRoutes_paired (avoids routes reached)).bind ?_
      exact fun _ _ copied => .value (footprint.replace copied)

/--
A command that neither reads samples in which two mixers differ, nor has a memory in which they do,
ends alike on both, and they differ afterwards where they did before.
-/
theorem process_paired (footprint : Mixer.Footprint writes names left right)
    (avoids : ∀ routes, command.routes? left = some routes →
      ∀ route ∈ routes, route.Avoids left.frame writes)
    (same : ∀ place, command.Keeps place → right.states.read place = left.states.read place) :
    Paired (Mixer.Footprint writes names) (command.process left) (command.process right) := by
  cases command with
  | biquad command => exact process_paired_biquad footprint avoids same
  | limiter command => exact process_paired_effect rfl footprint avoids same
  | compressor command => exact process_paired_effect rfl footprint avoids same

end Command

end Mixdown
