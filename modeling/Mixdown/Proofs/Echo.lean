import Mixdown.Proofs.Biquad
import Mixdown.Proofs.Fixed

/-! The pass-through filter adds to its input what another filter has left in the state. -/

namespace Mixdown

/-- Rounding shifts a word down to the nearest multiple, if the half fits into the word. -/
theorem roundShiftRight_toInt {value : Int64} (small : |value.toInt| ≤ 2 ^ 62) :
    (roundShiftRight value 14).toInt = (value.toInt + 2 ^ 13) / 2 ^ 14 := by
  obtain ⟨low, high⟩ := abs_le.mp small
  rw [roundShiftRight_wrapped value (by decide) (by decide), Int.bmod_eq_of_le (by omega) (by omega)]

namespace Biquad

/-- A sample with what a word of a filter's state adds to it, held between the ends. -/
def echo (word : Int64) (sample : Int32) : Int32 :=
  Int32.ofIntClamp (sample.toInt + (roundShiftRight word 14).toInt)

/-- Samples of which the first ones have words added, one word to each. -/
def echoes : List Int64 → List Int32 → List Int32
  | word :: words, sample :: samples => echo word sample :: echoes words samples
  | _, samples => samples

/-- A state whose two words are zero. -/
def State.Silent (state : State) : Prop := state.s0 = 0 ∧ state.s1 = 0

/-- The state of a filter that has heard nothing is silent. -/
theorem silent_initial : State.initial.Silent := ⟨rfl, rfl⟩

/-- A silent state is calm. -/
theorem State.Silent.calm {state : State} (silent : state.Silent) : state.Calm := by
  obtain ⟨first, second⟩ := silent
  exact ⟨by rw [first]; decide, by rw [second]; decide⟩

/-- No word is no echo. -/
@[simp] theorem echo_zero (sample : Int32) : echo 0 sample = sample := by
  -- The clamp leaves a sample as it is.
  have nothing : (roundShiftRight 0 14).toInt = 0 := by decide
  rw [echo, nothing, Int.add_zero, Int32.ofIntClamp, dif_pos sample.minValue_le_toInt,
    dif_pos sample.toInt_le]
  exact Int32.ofIntLE_toInt sample

/-- Echoes reach the first two samples only. -/
theorem drop_echoes (words : List Int64) (samples : List Int32) :
    (echoes words samples).drop words.length = samples.drop words.length := by
  -- Each word is added to the sample at its own place.
  induction words generalizing samples with
  | nil => rfl
  | cons word words ih =>
    cases samples with
    | nil => rfl
    | cons sample samples => exact ih samples

/-- The pass-through filter spends the first word on a sample, and the second one moves up. -/
theorem integerNext_passThrough {state : State} (calm : state.Calm) (sample : Int32) :
    integerNext .passThrough state sample =
      ({ state with s0 := state.s1, s1 := 0 }, echo state.s0 sample) := by
  have unity : (Coefficients.passThrough.b.get 0).toInt = 2 ^ 14 := by decide
  have rest : (Coefficients.passThrough.b.get 1).toInt = 0 ∧
      (Coefficients.passThrough.b.get 2).toInt = 0 ∧
      (Coefficients.passThrough.a.get 0).toInt = 0 ∧
      (Coefficients.passThrough.a.get 1).toInt = 0 := by decide
  obtain ⟨low, high⟩ := abs_le.mp calm.first
  have below := sample.le_toInt
  have above := sample.toInt_lt
  -- The product and the calm word stay far from the ends of the accumulator.
  have whole : (Int64.ofInt (sample.toInt * 2 ^ 14 + state.s0.toInt)).toInt =
      sample.toInt * 2 ^ 14 + state.s0.toInt := toInt_ofInt ⟨by omega, by omega⟩
  -- The sample is a whole multiple, so that rounding concerns the word alone.
  have output : clampSample (roundShiftRight
      (Int64.ofInt (sample.toInt * 2 ^ 14 + state.s0.toInt)) 14) = echo state.s0 sample := by
    rw [clampSample, echo, roundShiftRight_toInt (abs_le.mpr ⟨by omega, by omega⟩),
      roundShiftRight_toInt (abs_le.mpr ⟨by omega, by omega⟩), whole]
    congr 1
    omega
  obtain ⟨b1, b2, a0, a1⟩ := rest
  simp only [integerNext, unity, b1, b2, a0, a1, output]
  simp

/-- From a silent state the pass-through filter lets every sample pass, and the state stays. -/
theorem feed_silent {state : State} (silent : state.Silent) (samples : List Int32) :
    feed (integerNext .passThrough) state samples = (state, samples) := by
  -- Nothing is added to a sample, and a zero moves up for the zero that was spent.
  have still (sample : Int32) : integerNext .passThrough state sample = (state, id sample) := by
    rw [integerNext_passThrough silent.calm, silent.1, echo_zero, silent.2, id]
    cases state
    cases silent.1
    cases silent.2
    rfl
  rw [feed_still still, List.map_id]

/-- The pass-through filter spends both words on the first two samples. -/
theorem feed_passThrough {state : State} (calm : state.Calm) (samples : List Int32) :
    (feed (integerNext .passThrough) state samples).2 =
        echoes [state.s0, state.s1] samples ∧
      (2 ≤ samples.length → (feed (integerNext .passThrough) state samples).1 =
        { state with s0 := 0, s1 := 0 }) := by
  have moved : State.Calm { state with s0 := state.s1, s1 := 0 } :=
    ⟨calm.second.trans (by decide), show |(0 : Int64).toInt| ≤ 2 ^ 47 by decide⟩
  -- After two samples both words are spent and the state is silent.
  match samples with
  | [] => exact ⟨rfl, by simp⟩
  | [sample] => exact ⟨by simp only [feed, integerNext_passThrough calm, echoes], by simp⟩
  | first :: second :: rest =>
    have silent : State.Silent { state with s0 := 0, s1 := 0 } := ⟨rfl, rfl⟩
    simp only [feed, integerNext_passThrough calm, integerNext_passThrough moved,
      feed_silent silent, echoes, implies_true, and_self]

end Biquad

end Mixdown
