import Mixdown.Proofs.Command

/-! A mixer with a buffer for every channel has room for commands that stay among the channels. -/

namespace Mixdown

/-- An index names one of the first buffers. -/
def Names (channels : Nat) (index : Int16) : Prop :=
  0 ≤ index.toInt ∧ index.toInt.toNat < channels

/-- The first ways lead between the first buffers. -/
def Among (channels count : Nat) (inputs outputs : Vector Int16 maxChannels) : Prop :=
  ∀ way ∈ (inputs.toList.zip outputs.toList).take count,
    Names channels way.1 ∧ Names channels way.2

/-- A mixer has one buffer of a frame's length for each of a number of channels. -/
structure Mixer.Room (mixer : Mixer) (channels : Nat) : Prop where
  frame_pos : 0 < mixer.frame
  frames : mixer.arena.frames = mixer.frame
  buffers : mixer.arena.buffers = channels
  size : mixer.arena.size = channels * mixer.frame
  fits : channels * mixer.frame < addressSpace

namespace Mixer.Room

variable {mixer after : Mixer} {channels : Nat}

/-- Room depends on the shape only. -/
theorem of_shape (room : mixer.Room channels) (shape : after.SameShape mixer) :
    after.Room channels where
  frame_pos := by rw [shape.frame]; exact room.frame_pos
  frames := by rw [shape.frames, shape.frame]; exact room.frames
  buffers := shape.buffers.trans room.buffers
  size := by rw [shape.size, shape.frame]; exact room.size
  fits := by rw [shape.frame]; exact room.fits

/-- The buffer of a channel ends inside the arena. -/
theorem inside (room : mixer.Room channels) {channel : Nat} (below : channel < channels) :
    channel * mixer.frame + mixer.frame ≤ mixer.arena.size := by
  rw [room.size, ← Nat.succ_mul]
  exact Nat.mul_le_mul_right mixer.frame below

/-- An index that names a channel has a segment. -/
theorem segment? (room : mixer.Room channels) {index : Int16} (named : Names channels index) :
    (mixer.segment? index).isSome := by
  -- An index that names a channel is not negative.
  have positive : ¬index < 0 := by
    rw [Int16.lt_iff_toInt_lt, Int16.toInt_zero]
    exact Int.not_lt.mpr named.1
  -- The segment lies in the arena, whose positions can all be addressed.
  have inside := room.inside named.2
  have stop : index.toInt.toNat * mixer.frame + mixer.frame < addressSpace :=
    Nat.lt_of_le_of_lt inside (by rw [room.size]; exact room.fits)
  have start : index.toInt.toNat * mixer.frame < addressSpace := by omega
  simp only [Mixer.segment?, positive, if_false, Arena.segment?, start, stop, inside, and_self,
    if_true, Option.isSome_some]

/-- Ways among the channels have routes. -/
theorem routes? (room : mixer.Room channels) {count : Nat}
    {inputs outputs : Vector Int16 maxChannels} (among : Among channels count inputs outputs) :
    (mixer.routes? count inputs outputs).isSome :=
  Mixer.isSome_routes?.mpr fun way here =>
    ⟨room.segment? (among way here).1, room.segment? (among way here).2⟩

/-- A filter has a route when its input names a channel, and its output does or is negative. -/
theorem route? (room : mixer.Room channels) {command : BiquadCommand}
    (input : Names channels command.input)
    (output : command.output < 0 ∨ Names channels command.output) :
    (command.route? mixer).isSome := by
  have positive : ¬(command.input < 0 ∨ mixer.frame = 0) := by
    rw [Int16.lt_iff_toInt_lt, Int16.toInt_zero]
    have := input.1
    have := room.frame_pos
    omega
  -- A negative output stands for the input, which names a channel as well.
  have target : Names channels (if command.output < 0 then command.input else command.output) := by
    split
    · exact input
    · next above => exact output.resolve_left above
  obtain ⟨source, reads⟩ := Option.isSome_iff_exists.mp (room.segment? input)
  obtain ⟨target, writes⟩ := Option.isSome_iff_exists.mp (room.segment? target)
  simp [BiquadCommand.route?, positive, reads, writes]

end Mixer.Room

/-- All buffers of a command are those of the first channels. -/
def Command.Within (channels : Nat) : Command → Prop
  | .biquad command => Names channels command.input ∧ Names channels command.output
  | .limiter command => Among channels command.channels command.inputs command.outputs
  | .compressor command => Among channels command.channels command.inputs command.outputs

/-- A command among the channels has room. -/
theorem Command.Within.routed {mixer : Mixer} {channels : Nat} {command : Command}
    (within : command.Within channels) (room : mixer.Room channels) : command.Routed mixer := by
  cases command with
  | biquad command => exact room.route? within.1 (.inr within.2)
  | limiter command => exact room.routes? within
  | compressor command => exact room.routes? within

namespace Mixer

/-- A mixer is created when memory can address its samples. -/
theorem create_eq {channels frame : Nat}
    (enough : channels * frame * Arena.sampleSize < addressSpace / 2) :
    create channels frame = .ok
      { arena := ⟨channels, frame, Array.replicate (channels * frame) 0⟩, frame,
        rate := defaultRate, states := .empty } := by
  -- The limit on the allocation is stricter than the one on the number of samples.
  have fits : channels * frame < addressSpace := by
    simp only [Arena.sampleSize] at enough
    omega
  simp only [create, Arena.create, checkedSize, fits, if_true, ok_bind, Nat.not_le.mpr enough,
    if_false, pure_eq_ok]

end Mixer

end Mixdown
