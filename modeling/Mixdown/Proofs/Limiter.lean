import Mixdown.Proofs.Column

/-! The limiter as a step on columns, which it carries out without faults inside the arena. -/

namespace Mixdown.Limiter

/-- The magnitudes of samples in order, and the largest of them. -/
def listen : (channel : Nat) → List Int32 → (peaks : Vector Single maxChannels) →
    (peak : Single) → Vector Single maxChannels × Single
  | _, [], peaks, peak => (peaks, peak)
  | channel, sample :: samples, peaks, peak =>
    let level := (Single.ofSample sample).abs
    listen (channel + 1) samples (peaks.setIfInBounds channel level) (peak.larger level)

/-- A scaled sample. -/
def scaled (gain makeup : Single) (sample : Int32) : Int32 :=
  (Single.ofSample sample * gain * makeup).toSample

/-- What the limiter does with a column. -/
def tick (settings : Settings) (ways : List (Nat × Nat)) (state : State) (column : Column) :
    State × Column :=
  let (peaks, peak) := listen 0 (ways.map fun way => column way.1) state.peaks 0
  let state := follow settings { state with peaks } peak
  (state, rewrite (scaled state.gain settings.makeup) ways column)

variable {frame instant : Nat} {ways : List (Nat × Nat)}

/-- The peaks are those of the samples in the column. -/
theorem detect_eq {samples : Array Int32} (within : Within samples.size frame ways)
    (early : instant < frame) (channel : Nat) (peaks : Vector Single maxChannels) (peak : Single) :
    detect samples instant channel (ways.map (Route.between frame)) peaks peak =
      .ok (listen channel (ways.map fun way => columnAt samples frame instant way.1) peaks peak) := by
  induction ways generalizing channel peaks peak with
  | nil => rfl
  | cons way ways ih =>
    -- The first channel is fetched from its buffer, and the others extend what was heard.
    obtain ⟨input, -⟩ := within way (by simp)
    have later := fun other here => within other (List.mem_cons_of_mem way here)
    simp only [List.map_cons, detect, Route.between, listen]
    rw [fetch_cell (by omega), ok_bind]
    exact ih later _ _ _

/-- Scaling changes the samples of one column and keeps all others. -/
theorem scale_eq {samples : Array Int32} (within : Within samples.size frame ways)
    (early : instant < frame) (gain makeup : Single) :
    ∃ after, scale gain makeup instant (ways.map (Route.between frame)) samples = .ok after ∧
      Replaced frame instant samples
        (rewrite (scaled gain makeup) ways (columnAt samples frame instant)) after := by
  induction ways generalizing samples with
  | nil =>
    -- Without ways the column at the instant is rewritten to itself.
    exact ⟨samples, rfl, .refl samples frame instant⟩
  | cons way ways ih =>
    obtain ⟨input, output⟩ := within way (by simp)
    have later := fun other here => within other (List.mem_cons_of_mem way here)
    -- The first way is stored before the others run, over the column that it has rewritten.
    have cell : way.2 * frame + instant < samples.size := by omega
    obtain ⟨after, run, replaced⟩ :=
      @ih (samples.setIfInBounds (way.2 * frame + instant)
        (scaled gain makeup (columnAt samples frame instant way.1)))
        (by rw [Array.size_setIfInBounds]; exact later)
    rw [columnAt_set cell early early, if_pos rfl] at replaced
    refine ⟨after, ?_, replaced.of_set cell early⟩
    simp only [List.map_cons, scale, Route.between]
    rw [fetch_cell (by omega), ok_bind, store_eq_ok cell, ok_bind]
    exact run

/-- A step of the limiter changes one column as its tick does. -/
theorem step_eq {samples : Array Int32} (within : Within samples.size frame ways)
    (early : instant < frame) (settings : Settings) (state : State) :
    ∃ after, step settings (ways.map (Route.between frame)) instant state samples =
        .ok ((tick settings ways state (columnAt samples frame instant)).1, after) ∧
      Replaced frame instant samples
        (tick settings ways state (columnAt samples frame instant)).2 after := by
  -- What is heard is heard before any sample is scaled, by the gain that follows from it.
  obtain ⟨after, run, replaced⟩ := scale_eq within early
    (tick settings ways state (columnAt samples frame instant)).1.gain settings.makeup
  refine ⟨after, ?_, replaced⟩
  simp only [step, detect_eq within early, ok_bind]
  simp only [tick] at run
  rw [run]
  rfl

/-- The limiter over a frame feeds the columns to its tick. -/
theorem apply_eq {samples : Array Int32} (within : Within samples.size frame ways)
    (parameters : Parameters) (rate : Nat) (state : State) :
    ∃ after, apply parameters rate (ways.map (Route.between frame)) frame state samples =
        .ok ((feed (tick (parameters.settings rate) ways) state (columns samples frame)).1, after) ∧
      after.size = samples.size ∧
      columns after frame =
        (feed (tick (parameters.settings rate) ways) state (columns samples frame)).2 := by
  refine overInstants_eq (fun instant early state held full => ?_) state samples rfl
  -- The arena keeps its size, so every instant finds its ways within it.
  exact step_eq (by rwa [full]) early (parameters.settings rate) state

end Mixdown.Limiter
