import Mathlib.Data.List.Induction
import Mixdown.Proofs.Verification

/-! A run of commands completes unless an integer filter's sums leave their words. -/

namespace Mixdown

namespace Biquad

/-- The sums of the integer filter fit at every sample, from a state on. -/
def Fits (coefficients : Coefficients) : State → List Int32 → Prop
  | _, [] => True
  | state, sample :: samples =>
    StepFits coefficients state sample ∧
      Fits coefficients (integerNext coefficients state sample).1 samples

variable {coefficients : Coefficients} {state : State} {samples : List Int32}

/-- A run whose sums fit at every sample does not fault. -/
theorem applyInteger_of_fits (fits : Fits coefficients state samples) :
    applyInteger coefficients state samples =
      .ok (feed (integerNext coefficients) state samples) := by
  -- A step whose sums fit is the step of the recurrence, and leaves the state for the next one.
  simp only [applyInteger]
  induction samples generalizing state with
  | nil => rfl
  | cons sample samples ih =>
    obtain ⟨first, later⟩ := fits
    simp only [run_cons, integerStep_of_fits first, ok_bind, ih later, pure_eq_ok, feed]

/-- A run with a sum that does not fit overflows at its sample. -/
theorem applyInteger_of_not_fits (beyond : ¬Fits coefficients state samples) :
    applyInteger coefficients state samples = .error .overflow := by
  simp only [applyInteger]
  induction samples generalizing state with
  | nil => exact absurd trivial beyond
  | cons sample samples ih =>
    by_cases first : StepFits coefficients state sample
    · -- The first sample passes, so a later one does not.
      have later : ¬Fits coefficients (integerNext coefficients state sample).1 samples :=
        fun later => beyond ⟨first, later⟩
      simp only [run_cons, integerStep_of_fits first, ok_bind, ih later, error_bind]
    · simp only [run_cons, integerStep_of_not_fits first, error_bind]

end Biquad

namespace BiquadCommand

variable {command : BiquadCommand} {mixer : Mixer}

/-- The sums fit that the filter forms when it is run on a mixer in integer arithmetic. -/
def Fits (command : BiquadCommand) (mixer : Mixer) : Prop :=
  command.double = false → ∀ held route,
    command.state.bind (mixer.states.biquad[·]?) = some held → command.route? mixer = some route →
      Biquad.Fits command.coefficients (if command.reset then .initial else held)
        (mixer.arena.slice route.input)

/-- A filter whose sums fit filters all samples. -/
theorem filter_of_fits {state : Biquad.State} {samples : List Int32}
    (fits : command.double = false → Biquad.Fits command.coefficients state samples) :
    ∃ last outputs, command.filter state samples = .ok (last, outputs) := by
  simp only [filter]
  split
  · next single => exact ⟨_, _, Biquad.applyInteger_of_fits (fits single)⟩
  -- Doubles overflow to infinity, which is no fault.
  · exact ⟨_, _, (Biquad.applyDouble_eq _ _ state samples).1⟩
  · exact ⟨_, _, (Biquad.applyDouble_eq _ _ state samples).1⟩

/-- An integer filter with a sum that does not fit overflows. -/
theorem filter_of_not_fits {state : Biquad.State} {samples : List Int32}
    (single : command.double = false) (beyond : ¬Biquad.Fits command.coefficients state samples) :
    command.filter state samples = .error .overflow := by
  simp only [filter, single]
  exact Biquad.applyInteger_of_not_fits beyond

/-- What a filter gives has room in the output buffer. -/
theorem splice_of_route {route : Route} {state last : Biquad.State} {outputs : List Int32}
    (routed : command.route? mixer = some route)
    (filtered : command.filter state (mixer.arena.slice route.input) = .ok (last, outputs)) :
    ∃ arena, mixer.arena.splice route.output.start outputs = .ok arena := by
  -- A filter gives as many samples as it hears, and both buffers of a route are a frame long.
  obtain ⟨rfl, within⟩ := route?_eq_some routed
  obtain ⟨input, output⟩ := within (command.source, command.target) (by simp)
  have full : outputs.length = mixer.frame := by
    rw [filter_length filtered]
    simp only [Route.between, mixer.arena.slice_buffer input, columns, List.length_map,
      List.length_range]
  obtain ⟨samples, spliced, -⟩ := mixer.arena.splice_buffer output outputs full
  exact ⟨_, spliced⟩

/-- A filter whose sums fit runs to its end, whatever its indices and its handle are. -/
theorem process_of_fits (fits : command.Fits mixer) : ∃ after, command.process mixer = .ok after := by
  -- A filter stops early without a state or without a route; otherwise its sums decide.
  simp only [process]
  cases placed : command.state with
  | none => exact ⟨mixer, rfl⟩
  | some handle =>
    cases live : mixer.states.biquad[handle]? with
    | none => exact ⟨mixer, by simp only [live]⟩
    | some held =>
      simp only [live]
      cases routed : command.route? mixer with
      | none => exact ⟨_, rfl⟩
      | some route =>
        have found : command.state.bind (mixer.states.biquad[·]?) = some held := by
          simp [placed, live]
        -- In double precision there is nothing to fit, so the kernel always answers.
        obtain ⟨last, outputs, filtered⟩ :=
          filter_of_fits fun single => fits single held route found routed
        obtain ⟨arena, spliced⟩ := splice_of_route routed filtered
        simp only [filtered, ok_bind, spliced, pure_eq_ok]
        exact ⟨_, rfl⟩

/-- A filter with a sum that does not fit overflows. -/
theorem process_of_not_fits (beyond : ¬command.Fits mixer) :
    command.process mixer = .error .overflow := by
  simp only [Fits, not_forall] at beyond
  obtain ⟨single, held, route, found, routed, beyond⟩ := beyond
  obtain ⟨handle, placed, live⟩ := Option.bind_eq_some_iff.mp found
  simp only [process, placed, live, routed, filter_of_not_fits single beyond, error_bind]

end BiquadCommand

namespace Command

variable {command : Command} {mixer : Mixer}

/-- The sums fit that a command forms on a mixer; only integer filters form any that may not. -/
def Fits (mixer : Mixer) : Command → Prop
  | .biquad command => command.Fits mixer
  | .limiter _ | .compressor _ => True

/-- A command's routes lie along ways within the arena. -/
theorem within_of_routes? {routes : List Route} (found : command.routes? mixer = some routes) :
    ∃ ways, routes = ways.map (Route.between mixer.frame) ∧
      Mixdown.Within mixer.arena.size mixer.frame ways := by
  -- Routes are found between buffers of the arena only.
  cases command with
  | biquad command =>
    obtain ⟨route, routed, rfl⟩ := Option.map_eq_some_iff.mp found
    obtain ⟨rfl, within⟩ := BiquadCommand.route?_eq_some routed
    exact ⟨[(command.source, command.target)], rfl, within⟩
  | limiter command => exact ⟨command.ways, Mixer.routes?_eq_some found⟩
  | compressor command => exact ⟨command.ways, Mixer.routes?_eq_some found⟩

/-- An effect's work along ways within the arena does not fault, on any memory. -/
theorem work_completes (command : Command) {ways : List (Nat × Nat)}
    (within : Mixdown.Within mixer.arena.size mixer.frame ways) (held : Memory) : ∃ memory samples,
      command.work mixer (ways.map (Route.between mixer.frame)) held = .ok (memory, samples) := by
  -- Single precision has no overflow, so that the kernels only need their routes within the
  -- arena.
  simp only [work]
  split
  · next command state =>
    obtain ⟨samples, applied, -⟩ := Limiter.apply_eq within command.parameters mixer.rate state
    simp only [applied, ok_bind, pure_eq_ok]
    exact ⟨_, _, rfl⟩
  · next command state =>
    obtain ⟨samples, applied, -⟩ :=
      Compressor.apply_eq within command.parameters (command.prepare state)
    simp only [applied, ok_bind, pure_eq_ok]
    exact ⟨_, _, rfl⟩
  · exact ⟨_, _, rfl⟩

/-- An effect runs to its end on every mixer. -/
theorem process_completes (effect : command.isEffect) (mixer : Mixer) :
    ∃ after, command.process mixer = .ok after := by
  -- Whatever stops an effect early leaves the mixer and is no fault.
  rw [process_effect effect]
  simp only [runEffect]
  split
  · exact ⟨mixer, rfl⟩
  · next routes reached =>
    obtain ⟨ways, rfl, within⟩ := within_of_routes? reached
    split
    · split
      · exact ⟨mixer, rfl⟩
      · split
        · exact ⟨mixer, rfl⟩
        · next held live =>
          obtain ⟨memory, samples, worked⟩ := command.work_completes within held
          simp only [worked, ok_bind, pure_eq_ok]
          exact ⟨_, rfl⟩
    · -- Every route is within the arena, so that copying along all of them does not fault.
      obtain ⟨samples, copied, -⟩ := mixer.arena.copyRoutes_eq within
      simp only [copied, ok_bind, pure_eq_ok]
      exact ⟨_, rfl⟩

/-- A command whose sums fit runs to its end. -/
theorem process_of_fits (fits : command.Fits mixer) : ∃ after, command.process mixer = .ok after := by
  cases command with
  | biquad command => exact BiquadCommand.process_of_fits fits
  | limiter command => exact process_completes rfl mixer
  | compressor command => exact process_completes rfl mixer

/-- A command with a sum that does not fit overflows. -/
theorem process_of_not_fits (beyond : ¬command.Fits mixer) :
    command.process mixer = .error .overflow := by
  cases command with
  | biquad command => exact BiquadCommand.process_of_not_fits beyond
  | limiter command => exact absurd trivial beyond
  | compressor command => exact absurd trivial beyond

end Command

namespace Mixer

variable {mixer after : Mixer} {report last : Report}

/-- Running two lists in turn is running both at once. -/
theorem processFrom_append (mixer : Mixer) (report : Report) (front back : List Command) :
    mixer.processFrom report (front ++ back) = (do
      let (middle, counts) ← mixer.processFrom report front
      middle.processFrom counts back) := by
  -- The report is carried along, and each command finds the mixer that those before it left.
  induction front generalizing mixer report with
  | nil => rfl
  | cons command front ih =>
    simp only [List.cons_append, processFrom]
    split
    · cases command.process mixer with
      | error fault => rfl
      | ok middle => exact ih middle _
    · exact ih mixer _

/-- Every command whose turn comes finds a mixer on which its sums fit, or is skipped. -/
def Fits (mixer : Mixer) (commands : List Command) : Prop :=
  ∀ front command back middle report, commands = front ++ command :: back →
    mixer.process front = .ok (middle, report) → command.verify middle → command.Fits middle

/-- A run completes exactly when the sums of every command fit once its turn comes. -/
theorem process_iff_fits (mixer : Mixer) (commands : List Command) :
    (∃ after report, mixer.process commands = .ok (after, report)) ↔ mixer.Fits commands := by
  constructor
  · rintro ⟨after, report, ran⟩ front command back middle counts rfl first verified
    by_contra beyond
    -- The run would stop at the command that does not fit.
    simp only [process] at first ran
    simp only [processFrom_append, first, ok_bind, processFrom, verified, if_true,
      Command.process_of_not_fits beyond, error_bind] at ran
    cases ran
  · intro fits
    induction commands using List.reverseRecOn with
    | nil => exact ⟨mixer, ⟨0, 0⟩, rfl⟩
    | append_singleton commands command ih =>
      -- What fits along the whole list fits along its front, which leaves the last command.
      obtain ⟨middle, report, ran⟩ := ih fun front other back middle report same =>
        fits front other (back ++ [command]) middle report (by simp [same])
      have last := fits commands command [] middle report rfl ran
      simp only [process] at ran ⊢
      simp only [processFrom_append, ran, ok_bind, processFrom]
      split
      · next verified =>
        obtain ⟨after, run⟩ := Command.process_of_fits (last verified)
        simp only [run, ok_bind]
        exact ⟨after, _, rfl⟩
      · exact ⟨middle, _, rfl⟩

/-- The only fault of a run is the overflow of a sum. -/
theorem processFrom_fault {commands : List Command} {fault : Fault}
    (ran : mixer.processFrom report commands = .error fault) : fault = .overflow := by
  -- The first command that does not complete ends the run, and only sums can be the reason.
  induction commands generalizing mixer report with
  | nil => cases ran
  | cons command commands ih =>
    simp only [processFrom] at ran
    split at ran
    · by_cases fits : command.Fits mixer
      · obtain ⟨middle, run⟩ := Command.process_of_fits fits
        rw [run, ok_bind] at ran
        exact ih ran
      · rw [Command.process_of_not_fits fits, error_bind] at ran
        exact (Except.error.inj ran).symm
    · exact ih ran

/-- No filter in double precision works on a state of a filter in integer arithmetic. -/
def KernelsApart (commands : List Command) : Prop :=
  ∀ filter other : BiquadCommand, .biquad filter ∈ commands → .biquad other ∈ commands →
    filter.double = false → other.double = true →
      ∀ handle, filter.state = some handle → other.state ≠ some handle

/-- Every integer filter resets its state or finds a calm one. -/
def Settles (commands : List Command) (mixer : Mixer) : Prop :=
  ∀ filter : BiquadCommand, .biquad filter ∈ commands → filter.double = false →
    filter.reset = false →
      ∀ state, filter.state.bind (mixer.states.biquad[·]?) = some state → state.Calm

/-- An integer filter that is verified runs from a calm state and leaves one. -/
theorem calm_of_integer {filter : BiquadCommand} (single : filter.double = false)
    (begins : filter.reset = false →
      ∀ state, filter.state.bind (mixer.states.biquad[·]?) = some state → state.Calm)
    (verified : filter.verify mixer = true) :
    ∃ after, filter.process mixer = .ok after ∧
      ∀ handle state, filter.state = some handle → after.states.biquad[handle]? = some state →
        state.Calm := by
  obtain ⟨⟨held, found⟩, route, routed⟩ := BiquadCommand.verify_eq_true.mp verified
  have settled := BiquadCommand.settled_begin single fun keeps => begins keeps held found
  obtain ⟨after, run, filtered⟩ := BiquadCommand.process_filtered found routed settled
  refine ⟨after, run, fun handle state placed there => ?_⟩
  -- What is found at the filter's own place is the state that it has left, which is calm.
  have left := filtered.state
  simp only [BiquadCommand.state?, placed, Option.bind_some, there] at left
  obtain rfl := Option.some.inj left
  exact (BiquadCommand.settled_iff_calm single _).mp (filter.filter_eq held settled _).2

/-- Commands that settle still do after one of them has run, if it has left its own place calm. -/
theorem Settles.of_own {commands : List Command} (settles : mixer.Settles commands)
    {command : Command} (run : command.process mixer = .ok after)
    (own : ∀ filter : BiquadCommand, .biquad filter ∈ commands → filter.double = false →
      ∀ handle state, filter.state = some handle → command.Keeps (.biquad handle) →
        after.states.biquad[handle]? = some state → state.Calm) : after.Settles commands := by
  -- A state that another command has not written is the one that was calm before.
  intro filter member single keeps state found
  obtain ⟨handle, placed, there⟩ := Option.bind_eq_some_iff.mp found
  by_cases named : command.Keeps (.biquad handle)
  · exact own filter member single handle state placed named there
  · -- A place that the command does not keep is as calm as before.
    have same := (Command.footprint run).states (.biquad handle) named
    simp only [States.read, there, Option.map_some] at same
    obtain ⟨held, before, equal⟩ := Option.map_eq_some_iff.mp same.symm
    obtain rfl := Memory.biquad.inj equal
    exact settles filter member single keeps held (by simp [placed, before])

/-- A command that keeps no place of an integer filter runs, and all settle on what it leaves. -/
theorem Settles.of_foreign {commands : List Command} (settles : mixer.Settles commands)
    {command : Command} (fits : command.Fits mixer)
    (foreign : ∀ filter : BiquadCommand, .biquad filter ∈ commands → filter.double = false →
      ∀ handle, filter.state = some handle → ¬command.Keeps (.biquad handle)) :
    ∃ after, command.process mixer = .ok after ∧ after.Settles commands := by
  obtain ⟨after, run⟩ := Command.process_of_fits fits
  refine ⟨after, run, settles.of_own run ?_⟩
  intro filter member single handle state placed named there
  exact absurd named (foreign filter member single handle placed)

/-- A verified command among commands that settle runs, and they settle on what it leaves. -/
theorem Settles.step {commands : List Command} (settles : mixer.Settles commands)
    (apart : KernelsApart commands) {command : Command} (here : command ∈ commands)
    (verified : command.verify mixer = true) :
    ∃ after, command.process mixer = .ok after ∧ after.Settles commands := by
  -- Only the place of the command itself can change, by its own kernel or by a reset.
  cases command with
  | biquad filter =>
    cases single : filter.double with
    | false =>
      obtain ⟨after, run, calm⟩ := calm_of_integer single (settles filter here single) verified
      have ran : (Command.biquad filter).process mixer = .ok after := run
      refine ⟨after, ran, settles.of_own ran ?_⟩
      intro other member plain handle state placed named there
      obtain ⟨index, held, equal⟩ := Option.map_eq_some_iff.mp named
      obtain rfl := Place.biquad.inj equal
      exact calm index state held there
    | true =>
      -- The sums of a filter in double precision are not in question, and its place is its own.
      refine settles.of_foreign (fun plain => by simp [single] at plain) ?_
      intro other member plain handle placed named
      obtain ⟨index, held, equal⟩ := Option.map_eq_some_iff.mp named
      obtain rfl := Place.biquad.inj equal
      exact apart other filter member here plain single index placed held
  | limiter effect =>
    refine settles.of_foreign trivial fun _ _ _ _ _ named => ?_
    simp [Command.Keeps, Command.place?] at named
  | compressor effect =>
    refine settles.of_foreign trivial fun _ _ _ _ _ named => ?_
    simp [Command.Keeps, Command.place?] at named

/-- Commands that settle, and keep the kernels apart, run to the end. -/
theorem Settles.processFrom {commands rest : List Command} (settles : mixer.Settles commands)
    (apart : KernelsApart commands) (within : ∀ command ∈ rest, command ∈ commands)
    (report : Report) : ∃ after last, mixer.processFrom report rest = .ok (after, last) := by
  -- The commands that are left are among those of the whole list, for which the states settle.
  induction rest generalizing mixer report with
  | nil => exact ⟨mixer, report, rfl⟩
  | cons command rest ih =>
    have later := fun other here => within other (List.mem_cons_of_mem command here)
    simp only [Mixer.processFrom]
    split
    · next verified =>
      obtain ⟨middle, run, still⟩ := settles.step apart (within command (by simp)) verified
      simp only [run, ok_bind]
      exact ih still later _
    · exact ih settles later _

/--
A run completes exactly when the sums of every integer filter fit on the mixer that it finds, and
otherwise overflows. The sums fit if every integer filter starts from silence or from what its own
kernel has left, and no filter in double precision works on the same state. The counters of a run
that completes do not overflow while there are fewer than `2 ^ 32` commands.
-/
theorem process_completes_iff (mixer : Mixer) (commands : List Command) :
    ((∃ after report, mixer.process commands = .ok (after, report)) ↔ mixer.Fits commands) ∧
      (∀ fault, mixer.process commands = .error fault → fault = .overflow) ∧
      (mixer.Settles commands → KernelsApart commands →
        ∃ after report, mixer.process commands = .ok (after, report)) ∧
      (commands.length < UInt32.size → ∀ after report,
        mixer.process commands = .ok (after, report) → report.Counted) :=
  ⟨process_iff_fits mixer commands, fun _ ran => processFrom_fault ran,
    fun settles apart => settles.processFrom apart (fun _ here => here) ⟨0, 0⟩,
    fun few _ _ ran => process_counters ran few⟩

/-- Minus zero, as filters in double precision keep it, is a word that no sum may be taken from. -/
theorem process_overflows :
    let left : Biquad.State := ⟨Int64.minValue, Int64.minValue, 0, 0⟩
    let mixer : Mixer := ⟨⟨2, 2, #[-1, -1, 0, 0]⟩, 2, 48000, ⟨#[left], #[], #[]⟩⟩
    let filter : Command :=
      .biquad ⟨0, 1, ⟨#v[1, 0, 0], #v[0, 0]⟩, .zero, some 0, false, false, false⟩
    left.s0 = (⟨0x8000000000000000⟩ : Double).toWord ∧ mixer.process [filter] = .error .overflow := by
  decide +kernel

/-- The filter that overflows completes when it resets the state that it finds. -/
theorem process_completes_reset :
    let left : Biquad.State := ⟨Int64.minValue, Int64.minValue, 0, 0⟩
    let mixer : Mixer := ⟨⟨2, 2, #[-1, -1, 0, 0]⟩, 2, 48000, ⟨#[left], #[], #[]⟩⟩
    let filter : BiquadCommand := ⟨0, 1, ⟨#v[1, 0, 0], #v[0, 0]⟩, .zero, some 0, false, false, false⟩
    let reset : BiquadCommand := { filter with reset := true }
    (∃ fault, mixer.process [.biquad filter] = .error fault ∧ fault = .overflow) ∧
      mixer.Settles [.biquad reset] ∧ KernelsApart [.biquad reset] ∧
      ∃ after report, mixer.process [.biquad reset] = .ok (after, report) := by
  intro left mixer filter reset
  have settles : mixer.Settles [.biquad reset] := by
    intro other member single keeps
    obtain rfl := Command.biquad.inj (List.mem_singleton.mp member)
    simp [reset] at keeps
  -- There is one filter, which is of integer precision itself.
  have apart : KernelsApart [.biquad reset] := by
    intro other double member also single precise
    obtain rfl := Command.biquad.inj (List.mem_singleton.mp also)
    simp [reset, filter] at precise
  have overflows : mixer.process [.biquad filter] = .error .overflow := by decide +kernel
  exact ⟨⟨_, overflows, (process_completes_iff mixer [.biquad filter]).2.1 _ overflows⟩, settles, apart,
    (process_completes_iff mixer [.biquad reset]).2.2.1 settles apart⟩

end Mixer

end Mixdown
