import Mixdown.Proofs.Command

/-! A command goes on in later frames with the memory that it has left in the one before. -/

namespace Mixdown

/-- The command that stands for the same effect in all frames after its first. -/
def Command.steady : Command → Command
  | .biquad command => .biquad { command with reset := false }
  | .limiter command =>
    .limiter { command with
      parameters := { command.parameters with phase := Phase.updated.toByte } }
  | .compressor command =>
    .compressor { command with
      parameters :=
        { command.parameters with phase := Phase.updated.toByte, statisticsReset := 0 } }

namespace Command

/-- A later frame finds the memory at the same place. -/
@[simp] theorem steady_place? (command : Command) : command.steady.place? = command.place? := by
  cases command <;> rfl

/-- A later frame treats columns alike. -/
@[simp] theorem steady_device (rate : Nat) (command : Command) :
    command.steady.device rate = command.device rate := by
  funext memory column
  cases command <;> cases memory <;> rfl

/-- A later frame goes on from the same memories. -/
@[simp] theorem steady_settled (command : Command) (memory : Memory) :
    command.steady.Settled memory ↔ command.Settled memory := by
  cases command <;> cases memory <;> rfl

/-- A later frame needs the same room. -/
@[simp] theorem steady_routed (mixer : Mixer) (command : Command) :
    command.steady.Routed mixer ↔ command.Routed mixer := by
  cases command <;> rfl

/-- A later frame begins with the memory that the one before has left. -/
theorem steady_begin {command : Command} {memory : Memory} (settled : command.Settled memory) :
    command.steady.begin memory = memory := by
  cases command with
  | biquad command =>
    cases memory with
    | biquad state =>
      -- In double precision the unused words are clear already.
      cases double : command.double <;>
        simp_all [steady, begin, BiquadCommand.begin, Settled, BiquadCommand.Settled]
    | limiter state => rfl
    | compressor state => rfl
  | limiter command => cases memory <;> rfl
  | compressor command =>
    cases memory with
    | compressor state =>
      -- The statistics have been started anew by then, and the request for it has been taken back.
      simp [steady, begin, CompressorCommand.begin, CompressorCommand.prepare, Compressor.restart]
    | biquad state => rfl
    | limiter state => rfl

/-- What a command has left can be loaded by its later frame. -/
theorem Leaves.loads {states : States} {command : Command} {memory : Memory}
    (leaves : command.Leaves states memory) : command.steady.Loads states memory := by
  -- The memory that was left is the one found, and a later frame's beginning keeps it.
  obtain ⟨place, placed, found, settled⟩ := leaves
  exact ⟨place, memory, by simpa using placed, found, steady_begin settled,
    (steady_settled command memory).mpr settled⟩

end Command

end Mixdown
