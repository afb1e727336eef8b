import Mixdown.Proofs.Footprint

/-! Skipping the commands that fail verification loses nothing but the resets they ask for. -/

namespace Mixdown

/-- Nothing is written at a place that is not there. -/
theorem States.write_of_absent {states : States} {place : Place} (absent : states.read place = none)
    (memory : Memory) : states.write place memory = states := by
  cases place <;> cases memory <;> try rfl
  all_goals
    simp only [read, Option.map_eq_none_iff, Array.getElem?_eq_none_iff] at absent
    simp only [write, Array.setIfInBounds_eq_of_size_le absent]

/-- Both counters of a report fit the words of thirty-two bits that hold them. -/
structure Report.Counted (report : Report) : Prop where
  processed : report.processed < UInt32.size
  skipped : report.skipped < UInt32.size

namespace BiquadCommand

/-- The states after a filter that is never run has cleared its own on request. -/
def cleared (command : BiquadCommand) (states : States) : States :=
  match command.state with
  | some handle =>
    if command.reset then states.write (.biquad handle) (.biquad .initial) else states
  | none => states

/-- A filter that fails verification clears its state on request, and changes nothing else. -/
theorem process_of_failed {command : BiquadCommand} {mixer : Mixer}
    (failed : command.verify mixer = false) :
    command.process mixer = .ok { mixer with states := command.cleared mixer.states } := by
  -- The command looks for its state first and for its route second, as verification does.
  simp only [process, cleared]
  cases placed : command.state with
  | none => rfl
  | some handle =>
    cases live : mixer.states.biquad[handle]? with
    | none =>
      have absent : mixer.states.read (.biquad handle) = none := by simp [States.read, live]
      simp only [live, States.write_of_absent absent, ite_self]
    | some held =>
      have lost : command.route? mixer = none := by
        simpa [verify, placed, live] using failed
      simp only [live, lost, pure_eq_ok]
      cases command.reset with
      | true => rfl
      | false =>
        -- Without a request the state is put back where it was found.
        obtain ⟨inside, rfl⟩ := Array.getElem?_eq_some_iff.mp live
        simp [Array.setIfInBounds, inside]

end BiquadCommand

namespace Command

variable {command : Command} {mixer after : Mixer}

/-- A command asks for the reset of a state that is there. -/
def Resets (states : States) : Command → Prop
  | .biquad command => command.reset ∧ (command.state.bind (states.biquad[·]?)).isSome
  | .limiter _ | .compressor _ => False

/-- Filters find a state for their handle as long as the tables keep their lengths. -/
theorem isSome_state {after before : States} (sizes : after.SameSizes before)
    (handle : Option Nat) : (handle.bind (after.biquad[·]?)).isSome =
      (handle.bind (before.biquad[·]?)).isSome := by
  cases handle with
  | none => rfl
  | some index => grind [sizes.biquad]

/-- Verification depends on the shape and on the lengths of the tables only. -/
theorem verify_of_shape (shape : after.SameShape mixer) (sizes : after.states.SameSizes mixer.states) :
    command.verify after = command.verify mixer := by
  -- A route is found by the shape, and a state by the length of its table.
  cases command with
  | biquad command =>
    simp only [verify, BiquadCommand.verify, BiquadCommand.route?, shape.frame,
      Mixer.segment?_of_shape shape, isSome_state sizes]
  | limiter command => rfl
  | compressor command => rfl

/-- Whether a live state is reset depends on the lengths of the tables only. -/
theorem resets_of_sizes (sizes : after.states.SameSizes mixer.states) :
    command.Resets after.states ↔ command.Resets mixer.states := by
  cases command with
  | biquad command => simp only [Resets, isSome_state sizes]
  | limiter command => rfl
  | compressor command => rfl

/-- A command that fails verification and resets nothing does nothing. -/
theorem process_of_failed (failed : command.verify mixer = false)
    (keeps : ¬command.Resets mixer.states) : command.process mixer = .ok mixer := by
  cases command with
  | biquad command =>
    have cleared : command.cleared mixer.states = mixer.states := by
      simp only [BiquadCommand.cleared]
      cases placed : command.state with
      | none => rfl
      | some handle =>
        cases reset : command.reset with
        | false => rfl
        | true =>
          -- The reset is asked of a state that is not there.
          have absent : mixer.states.read (.biquad handle) = none := by
            simpa [Resets, States.read, placed, reset] using keeps
          exact States.write_of_absent absent (.biquad .initial)
    have ran := BiquadCommand.process_of_failed failed
    rw [cleared] at ran
    exact ran
  -- Effects never fail verification.
  | limiter command => simp [verify] at failed
  | compressor command => simp [verify] at failed

end Command

namespace Mixer

variable {mixer after : Mixer} {commands : List Command}

/-- The commands that fail verification are the ones that are skipped, and all others run. -/
theorem processFrom_counts {report last : Report}
    (ran : mixer.processFrom report commands = .ok (after, last)) :
    last.skipped = report.skipped + commands.countP (fun command => !command.verify mixer) ∧
      last.processed + last.skipped = report.processed + report.skipped + commands.length := by
  induction commands generalizing mixer report with
  | nil =>
    obtain ⟨-, rfl⟩ := Prod.mk.inj (Except.ok.inj ran)
    exact ⟨rfl, rfl⟩
  | cons command commands ih =>
    simp only [processFrom] at ran
    rw [List.countP_cons, List.length_cons]
    cases verified : command.verify mixer with
    | true =>
      rw [if_pos verified] at ran
      obtain ⟨middle, first, rest⟩ := bind_eq_ok.mp ran
      obtain ⟨skipped, total⟩ := ih rest
      -- The command that has run does not change the verdict on any other.
      have own := Command.footprint first
      have same : (fun command : Command => !command.verify middle) =
          fun command => !command.verify mixer := by
        funext other
        rw [Command.verify_of_shape own.shape own.sizes]
      rw [same] at skipped
      simp only [Bool.not_true, Bool.false_eq_true, if_false] at skipped total ⊢
      exact ⟨by omega, by omega⟩
    | false =>
      rw [if_neg (by simp [verified])] at ran
      obtain ⟨skipped, total⟩ := ih ran
      simp only [Bool.not_false, if_true] at skipped total ⊢
      exact ⟨by omega, by omega⟩

/-- The counters of a run stay within their words when there are fewer commands than these count. -/
theorem process_counters {report : Report} (ran : mixer.process commands = .ok (after, report))
    (few : commands.length < UInt32.size) : report.Counted := by
  obtain ⟨-, total⟩ := processFrom_counts ran
  simp only [Nat.zero_add] at total
  exact ⟨by omega, by omega⟩

/-- Running the commands without verification comes to the same unless a skipped one resets. -/
theorem processAll_eq {report : Report}
    (keeps : ∀ command ∈ commands, command.verify mixer = false → ¬command.Resets mixer.states) :
    mixer.processAll commands = Prod.fst <$> mixer.processFrom report commands := by
  induction commands generalizing mixer report with
  | nil => rfl
  | cons command commands ih =>
    simp only [processAll, processFrom]
    cases verified : command.verify mixer with
    | true =>
      rw [if_pos rfl]
      cases ran : command.process mixer with
      | error fault => rfl
      | ok middle =>
        have own := Command.footprint ran
        simp only [ok_bind]
        refine ih fun other here failed => ?_
        -- What was true of the other commands before is still true.
        rw [Command.verify_of_shape own.shape own.sizes] at failed
        exact mt (Command.resets_of_sizes own.sizes).mp
          (keeps other (List.mem_cons_of_mem command here) failed)
    | false =>
      rw [if_neg (by simp),
        Command.process_of_failed verified (keeps command (by simp) verified), ok_bind]
      exact ih fun other here => keeps other (List.mem_cons_of_mem command here)

/--
Verification before the run decides which commands are skipped, and the counters hold the numbers of
fewer than `2 ^ 32` commands. It loses nothing when no skipped filter resets a live state, and such a
reset is all that the run of one filter can lose.
-/
theorem process_verified (mixer : Mixer) (commands : List Command) :
    (∀ after report, mixer.process commands = .ok (after, report) →
      report.skipped = commands.countP (fun command => !command.verify mixer) ∧
        report.processed + report.skipped = commands.length ∧
        (commands.length < UInt32.size → report.Counted)) ∧
    ((∀ command ∈ commands, command.verify mixer = false → ¬command.Resets mixer.states) →
      mixer.processAll commands = Prod.fst <$> mixer.process commands) ∧
    ∀ command : BiquadCommand, command.verify mixer = false →
      command.process mixer = .ok { mixer with states := command.cleared mixer.states } := by
  refine ⟨fun after report ran => ?_, processAll_eq, fun _ => BiquadCommand.process_of_failed⟩
  -- The counts start from zero.
  obtain ⟨skipped, total⟩ := processFrom_counts ran
  exact ⟨by simpa using skipped, by simpa using total, process_counters ran⟩

/-- A filter beyond the arena is skipped, and run on its own it clears its state on request. -/
theorem process_verified_beyond :
    let state : Biquad.State := ⟨5, 6, 7, 8⟩
    let mixer : Mixer := ⟨⟨2, 2, #[100, 200, 0, 0]⟩, 2, 48000, ⟨#[state], #[], #[]⟩⟩
    let beyond : BiquadCommand := ⟨0, 2, .passThrough, .zero, some 0, false, false, false⟩
    let inside : BiquadCommand := { beyond with output := 1, reset := true }
    let after : Mixer :=
      ⟨⟨2, 2, #[100, 200, 100, 200]⟩, 2, 48000, ⟨#[.initial], #[], #[]⟩⟩
    mixer.process [.biquad beyond, .biquad inside] = .ok (after, ⟨1, 1⟩) ∧
      [Command.biquad beyond, .biquad inside].countP (fun command => !command.verify mixer) = 1 ∧
      mixer.processAll [.biquad beyond, .biquad inside] = .ok after ∧
      BiquadCommand.process { beyond with reset := true } mixer =
        .ok { mixer with states := ⟨#[.initial], #[], #[]⟩ } := by
  intro state mixer beyond inside after
  have ran : mixer.process [.biquad beyond, .biquad inside] = .ok (after, ⟨1, 1⟩) := by
    decide +kernel
  obtain ⟨counts, same, alone⟩ := process_verified mixer [.biquad beyond, .biquad inside]
  -- The only filter that fails does not ask for a reset.
  have keeps : ∀ command ∈ [Command.biquad beyond, .biquad inside],
      command.verify mixer = false → ¬command.Resets mixer.states := by
    intro command here failed
    simp only [List.mem_cons, List.not_mem_nil, or_false] at here
    rcases here with rfl | rfl
    · simp [Command.Resets, beyond]
    · -- The filter inside the arena passes verification, so that it may reset.
      exact absurd failed (by decide)
  refine ⟨ran, (counts after ⟨1, 1⟩ ran).1.symm, ?_, alone { beyond with reset := true } (by decide)⟩
  rw [same keeps, ran]
  rfl

end Mixer

end Mixdown
