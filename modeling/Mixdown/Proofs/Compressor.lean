import Mixdown.Compressor
import Mixdown.Proofs.Column

/-! The compressor as a step on columns, which it carries out without faults inside the arena. -/

namespace Mixdown.Compressor

/-- The sum of the squares of samples. -/
def power (samples : List Int32) (sum : Single) : Single :=
  samples.foldl (fun sum sample =>
    let sample : Fixed 15 := ⟨sample.toInt64⟩
    sum + (sample * sample).toSingle) sum

/-- The column after every channel in turn was scaled, with the magnitudes noted if asked to. -/
def shape (gain : Single) (noting : Bool) :
    (channel : Nat) → List (Nat × Nat) → Vector Single maxChannels → Column →
      Vector Single maxChannels × Column
  | _, [], noted, column => (noted, column)
  | channel, way :: ways, noted, column =>
    let sample := column way.1
    let magnitude : Fixed 15 := ⟨sample.toInt64.abs⟩
    let noted := if noting then noted.setIfInBounds channel magnitude.toSingle else noted
    shape gain noting (channel + 1) ways noted
      (Function.update column way.2 (Single.ofSample sample * gain).toSample)

/-- What the compressor does with a column. -/
def tick (parameters : Parameters) (ways : List (Nat × Nat)) (state : State) (column : Column) :
    State × Column :=
  let noting := parameters.statistics ≠ 0
  let mean := power (ways.map fun way => column way.1) 0 / .ofNat ways.length
  let state := follow parameters state mean
  let gain := state.gainSmoothed * state.outputGain
  let { maximumMean, minimumGain, lastSamples } := state.statistics
  let (lastSamples, column) := shape gain noting 0 ways lastSamples column
  let statistics : Statistics :=
    if noting then
      { maximumMean := maximumMean.larger mean, minimumGain := minimumGain.smaller gain,
        lastSamples }
    else state.statistics
  ({ state with statistics }, column)

variable {frame instant : Nat} {ways : List (Nat × Nat)}

/-- The energy is that of the samples in the column. -/
theorem energy_eq {samples : Array Int32} (within : Within samples.size frame ways)
    (early : instant < frame) (sum : Single) :
    energy samples instant (ways.map (Route.between frame)) sum =
      .ok (power (ways.map fun way => columnAt samples frame instant way.1) sum) := by
  induction ways generalizing sum with
  | nil => rfl
  | cons way ways ih =>
    -- Every way reads inside the samples, and the rest goes on from the sum with its square.
    obtain ⟨input, -⟩ := within way (by simp)
    have later := fun other here => within other (List.mem_cons_of_mem way here)
    simp only [List.map_cons, energy, Route.between]
    rw [fetch_cell (by omega), ok_bind]
    exact ih later _

/-- Scaling changes the samples of one column and keeps all others. -/
theorem scale_eq {samples : Array Int32} (within : Within samples.size frame ways)
    (early : instant < frame) (gain : Single) (noting : Bool) (channel : Nat)
    (noted : Vector Single maxChannels) :
    ∃ after, scale gain noting instant channel (ways.map (Route.between frame)) noted samples =
        .ok ((shape gain noting channel ways noted (columnAt samples frame instant)).1, after) ∧
      Replaced frame instant samples
        (shape gain noting channel ways noted (columnAt samples frame instant)).2 after := by
  induction ways generalizing samples channel noted with
  | nil =>
    exact ⟨samples, rfl, .refl samples frame instant⟩
  | cons way ways ih =>
    obtain ⟨input, output⟩ := within way (by simp)
    have later := fun other here => within other (List.mem_cons_of_mem way here)
    -- The magnitude is noted and the sample stored before the others are scaled.
    have cell : way.2 * frame + instant < samples.size := by omega
    let sample := columnAt samples frame instant way.1
    let magnitude : Fixed 15 := ⟨sample.toInt64.abs⟩
    obtain ⟨after, run, replaced⟩ :=
      @ih (samples.setIfInBounds (way.2 * frame + instant)
        (Single.ofSample sample * gain).toSample)
        (by rw [Array.size_setIfInBounds]; exact later) (channel + 1)
        (if noting then noted.setIfInBounds channel magnitude.toSingle else noted)
    rw [columnAt_set cell early early, if_pos rfl] at run replaced
    refine ⟨after, ?_, replaced.of_set cell early⟩
    simp only [List.map_cons, scale, Route.between]
    rw [fetch_cell (by omega), ok_bind, store_eq_ok cell, ok_bind]
    exact run

/-- A step of the compressor changes one column as its tick does. -/
theorem step_eq {samples : Array Int32} (within : Within samples.size frame ways)
    (early : instant < frame) (parameters : Parameters) (state : State) :
    ∃ after, step parameters (ways.map (Route.between frame)) instant state samples =
        .ok ((tick parameters ways state (columnAt samples frame instant)).1, after) ∧
      Replaced frame instant samples
        (tick parameters ways state (columnAt samples frame instant)).2 after := by
  -- The gain follows from the mean over the channels before any of them is scaled.
  let followed := follow parameters state
    (power (ways.map fun way => columnAt samples frame instant way.1) 0 / .ofNat ways.length)
  obtain ⟨after, run, replaced⟩ := scale_eq within early
    (followed.gainSmoothed * followed.outputGain) (parameters.statistics ≠ 0) 0
    followed.statistics.lastSamples
  refine ⟨after, ?_, replaced⟩
  -- A step adds up the energy first and then scales by the state that has followed it.
  simp only [step, energy_eq within early, ok_bind, List.length_map]
  simp only [followed] at run
  rw [run]
  rfl

/-- The state that a frame begins with; statistics that are gathered may be asked to start anew. -/
def restart (parameters : Parameters) (ways : List (Nat × Nat)) (state : State) : State :=
  if ways ≠ [] ∧ parameters.statistics ≠ 0 ∧ parameters.statisticsReset ≠ 0 then
    { state with statistics := .initial }
  else state

/-- The compressor over a frame; without channels it leaves its state alone. -/
def pass (parameters : Parameters) (ways : List (Nat × Nat)) (state : State) (column : Column) :
    State × Column :=
  if ways = [] then (state, column) else tick parameters ways state column

/-- The compressor over a frame feeds the columns to its tick. -/
theorem apply_eq {samples : Array Int32} (within : Within samples.size frame ways)
    (parameters : Parameters) (state : State) :
    ∃ after, apply parameters (ways.map (Route.between frame)) frame state samples =
        .ok ((feed (pass parameters ways) (restart parameters ways state)
          (columns samples frame)).1, after) ∧
      after.size = samples.size ∧
      columns after frame = (feed (pass parameters ways) (restart parameters ways state)
        (columns samples frame)).2 := by
  by_cases empty : ways = []
  · -- Without channels there is no mean to follow, and every column passes.
    subst empty
    have start : restart parameters [] state = state := by simp [restart]
    have still : ∀ column, pass parameters [] state column = (state, id column) := fun _ => rfl
    rw [start, feed_still still, List.map_id]
    exact ⟨samples, by simp [apply], rfl, rfl⟩
  · -- Otherwise every instant is one tick, from the state with which the frame begins.
    have ticking : pass parameters ways = tick parameters ways := by
      funext state column
      rw [pass, if_neg empty]
    have steps : ∀ instant, instant < frame → ∀ (state : State) (held : Array Int32),
        held.size = samples.size →
          ∃ after, step parameters (ways.map (Route.between frame)) instant state held =
              .ok ((tick parameters ways state (columnAt held frame instant)).1, after) ∧
            Replaced frame instant held
              (tick parameters ways state (columnAt held frame instant)).2 after :=
      fun instant early state held full => step_eq (by rwa [full]) early parameters state
    obtain ⟨after, run, size, cells⟩ :=
      overInstants_eq steps (restart parameters ways state) samples rfl
    refine ⟨after, ?_, size, ?_⟩
    · rw [ticking, ← run]
      simp [apply, restart, empty]
    · rw [ticking, cells]

end Mixdown.Compressor
