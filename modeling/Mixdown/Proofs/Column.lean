import Mixdown.Limiter
import Mixdown.Proofs.Loop
import Mixdown.Proofs.Stream

/-! The samples of all buffers at one instant, and what writing to an arena does to them. -/

namespace Mixdown

/-- The samples of all buffers at one instant. -/
abbrev Column := Nat → Int32

/-- The column at an instant, when every buffer holds a number of samples. -/
def columnAt (samples : Array Int32) (frame instant : Nat) : Column :=
  fun buffer => samples[buffer * frame + instant]?.getD 0

/-- The columns of a frame in order. -/
def columns (samples : Array Int32) (frame : Nat) : List Column :=
  (List.range frame).map (columnAt samples frame)

section Cells

variable {samples : Array Int32} {frame buffer instant : Nat}

/-- A sample inside the arena is fetched from its column. -/
theorem fetch_cell (inside : buffer * frame + instant < samples.size) :
    fetch samples (buffer * frame + instant) = .ok (columnAt samples frame instant buffer) := by
  simp [fetch, columnAt, inside]

/-- Storing one sample changes one column in one buffer. -/
theorem columnAt_set (inside : buffer * frame + instant < samples.size) (here : instant < frame)
    {moment : Nat} (there : moment < frame) (sample : Int32) :
    columnAt (samples.setIfInBounds (buffer * frame + instant) sample) frame moment =
      if moment = instant then Function.update (columnAt samples frame instant) buffer sample
      else columnAt samples frame moment := by
  funext other
  by_cases same : moment = instant
  · subst same
    rw [if_pos rfl]
    by_cases this : other = buffer
    · subst this
      simp [columnAt, inside]
    · have apart : buffer * frame + moment ≠ other * frame + moment := fun same =>
        this (position_inj here there same).1.symm
      simp [columnAt, this, Array.getElem?_setIfInBounds_ne apart]
  · -- Another instant lies elsewhere in every buffer, so its whole column is kept.
    have apart : buffer * frame + instant ≠ other * frame + moment := fun equal =>
      same (position_inj here there equal).2.symm
    simp [columnAt, same, Array.getElem?_setIfInBounds_ne apart]

/-- The column at an instant has been replaced, and the samples of all others are kept. -/
structure Replaced (frame instant : Nat) (samples : Array Int32) (column : Column)
    (after : Array Int32) : Prop where
  size : after.size = samples.size
  cells : ∀ moment, moment < frame → columnAt after frame moment =
    if moment = instant then column else columnAt samples frame moment

/-- Leaving all samples alone replaces a column by itself. -/
theorem Replaced.refl (samples : Array Int32) (frame instant : Nat) :
    Replaced frame instant samples (columnAt samples frame instant) samples where
  size := rfl
  cells moment there := by
    by_cases same : moment = instant
    · rw [if_pos same, same]
    · rw [if_neg same]

/-- A sample may be stored in a column before the whole column is replaced. -/
theorem Replaced.of_set {sample : Int32} {column : Column} {after : Array Int32}
    (inside : buffer * frame + instant < samples.size) (here : instant < frame)
    (later : Replaced frame instant (samples.setIfInBounds (buffer * frame + instant) sample) column
      after) : Replaced frame instant samples column after where
  size := by rw [later.size, Array.size_setIfInBounds]
  cells moment there := by
    rw [later.cells moment there, columnAt_set inside here there]
    by_cases same : moment = instant
    · rw [if_pos same, if_pos same]
    · rw [if_neg same, if_neg same, if_neg same]

end Cells

/-- The route between two buffers of a frame. -/
def Route.between (frame : Nat) (way : Nat × Nat) : Route where
  input := ⟨way.1 * frame, way.1 * frame + frame⟩
  output := ⟨way.2 * frame, way.2 * frame + frame⟩

/-- Both buffers of every way lie in an arena of a size. -/
def Within (size frame : Nat) (ways : List (Nat × Nat)) : Prop :=
  ∀ way ∈ ways, way.1 * frame + frame ≤ size ∧ way.2 * frame + frame ≤ size

/-- A column after the sample of every way was changed from its first buffer into its second. -/
def rewrite (change : Int32 → Int32) (ways : List (Nat × Nat)) (column : Column) : Column :=
  ways.foldl (fun column way => Function.update column way.2 (change (column way.1))) column

/-- A step that changes one column at its instant only, run over a frame, feeds the columns. -/
theorem overInstants_eq {step : Nat → σ → Array Int32 → Except Fault (σ × Array Int32)}
    {tick : σ → Column → σ × Column} {frame size : Nat}
    (steps : ∀ instant, instant < frame → ∀ (state : σ) (samples : Array Int32),
      samples.size = size → ∃ after, step instant state samples =
          .ok ((tick state (columnAt samples frame instant)).1, after) ∧
        Replaced frame instant samples (tick state (columnAt samples frame instant)).2 after)
    (state : σ) (samples : Array Int32) (full : samples.size = size) :
    ∃ after, overInstants step frame 0 state samples =
        .ok ((feed tick state (columns samples frame)).1, after) ∧ after.size = size ∧
      columns after frame = (feed tick state (columns samples frame)).2 := by
  -- Instants that have been passed keep what was written, and later ones are still as before.
  have general : ∀ (count instant : Nat) (state : σ) (samples : Array Int32),
      instant + count = frame → samples.size = size →
        ∃ after, overInstants step count instant state samples = .ok
            ((feed tick state ((List.range' instant count).map (columnAt samples frame))).1,
              after) ∧ after.size = size ∧
          (∀ moment, moment < instant → columnAt after frame moment =
            columnAt samples frame moment) ∧
          (List.range' instant count).map (columnAt after frame) =
            (feed tick state ((List.range' instant count).map (columnAt samples frame))).2 := by
    intro count
    induction count with
    | zero => exact fun instant state samples _ full => ⟨samples, rfl, full, fun _ _ => rfl, rfl⟩
    | succ count ih =>
      intro instant state samples total full
      -- The first instant is written now, and the induction runs over those behind it.
      obtain ⟨first, ran, replaced⟩ := steps instant (by omega) state samples full
      have cells := replaced.cells
      -- What was written first is in no later column, so the rest is fed the columns of before.
      have later : (List.range' (instant + 1) count).map (columnAt first frame) =
          (List.range' (instant + 1) count).map (columnAt samples frame) := by
        refine List.map_congr_left fun moment here => ?_
        have bounds := List.mem_range'_1.mp here
        rw [cells moment (by omega), if_neg (by omega)]
      obtain ⟨after, runs, afterFull, before, outputs⟩ :=
        ih (instant + 1) (tick state (columnAt samples frame instant)).1 first (by omega)
          (replaced.size.trans full)
      rw [later] at runs outputs
      refine ⟨after, ?_, afterFull, ?_, ?_⟩
      · simp only [overInstants, ran, ok_bind, List.range'_succ, List.map_cons, feed]
        exact runs
      · intro moment early
        -- Neither this instant nor a later one touches the columns that were passed.
        rw [before moment (by omega), cells moment (by omega), if_neg (by omega)]
      · simp only [List.range'_succ, List.map_cons, feed]
        -- The rest keeps what this instant has written, which is therefore its output.
        rw [outputs, before instant (by omega), cells instant (by omega), if_pos rfl]
  obtain ⟨after, runs, afterFull, -, outputs⟩ := general frame 0 state samples (by omega) full
  rw [← List.range_eq_range'] at runs outputs
  exact ⟨after, runs, afterFull, outputs⟩

namespace Arena

/-- Writing samples is storing each of them at its index. -/
theorem write_eq_foldlM (samples : Array Int32) (start : Nat) (items : List Int32) :
    write samples start items =
      (items.zipIdx start).foldlM (fun samples (item, index) => store samples index item)
        samples := by
  induction items generalizing samples start with
  | nil => rfl
  | cons item items ih =>
    rw [write, List.zipIdx_cons, List.foldlM_cons]
    exact bind_congr fun samples => ih samples (start + 1)

/-- Samples are written one behind the other, and all others stay. -/
theorem write_eq (samples : Array Int32) (start : Nat) (items : List Int32)
    (inside : start + items.length ≤ samples.size) :
    ∃ written, write samples start items = .ok written ∧ written.size = samples.size ∧
      ∀ position, written[position]? =
        if start ≤ position ∧ position < start + items.length then items[position - start]?
        else samples[position]? := by
  rw [write_eq_foldlM]
  exact foldlM_store samples start items inside

/-- The segment of a buffer holds the buffer's sample of every column. -/
theorem slice_buffer (arena : Arena) {frame buffer : Nat}
    (inside : buffer * frame + frame ≤ arena.size) :
    arena.slice ⟨buffer * frame, buffer * frame + frame⟩ =
      (columns arena.samples frame).map fun column => column buffer := by
  apply List.ext_getElem?
  intro instant
  simp only [size] at inside
  simp only [slice, columns, List.map_map, List.getElem?_map, Array.getElem?_toList,
    Array.getElem?_extract]
  by_cases early : instant < frame
  · -- Within the frame the slice and the column hold the same sample of the arena.
    have within : buffer * frame + instant < arena.samples.size := by omega
    simp [early, within, columnAt]
    omega
  · -- Beyond the frame both lists have ended.
    rw [List.getElem?_eq_none (by simpa using early)]
    simp only [Option.map_none]
    rw [if_neg (by omega)]

/-- Writing a whole buffer changes its sample in every column. -/
theorem splice_buffer (arena : Arena) {frame buffer : Nat}
    (inside : buffer * frame + frame ≤ arena.size) (items : List Int32)
    (full : items.length = frame) :
    ∃ samples, arena.splice (buffer * frame) items = .ok { arena with samples } ∧
      samples.size = arena.size ∧
      columns samples frame =
        List.zipWith (fun column item => Function.update column buffer item)
          (columns arena.samples frame) items := by
  obtain ⟨written, run, size, cells⟩ := write_eq arena.samples (buffer * frame) items
    (by simp only [Arena.size] at inside; omega)
  refine ⟨written, ?_, size, ?_⟩
  · simp only [splice, full, if_neg (Nat.not_lt.mpr inside), run, ok_bind, pure_eq_ok]
  · apply List.ext_getElem
    · simp [columns, full]
    intro instant early _
    -- The columns are compared instant by instant, and each buffer by buffer.
    have early : instant < frame := by simpa [columns] using early
    simp only [columns, List.getElem_zipWith, List.getElem_map, List.getElem_range]
    funext other
    simp only [columnAt, cells]
    by_cases same : other = buffer
    · subst same
      simp [full, early]
    · -- A position inside the written buffer would make the two buffers equal.
      have outside : ¬(buffer * frame ≤ other * frame + instant ∧
          other * frame + instant < buffer * frame + items.length) := by
        rintro ⟨low, high⟩
        have within : other * frame + instant - buffer * frame < frame := by omega
        exact same (position_inj early within (by omega)).1
      rw [Function.update_of_ne same, if_neg outside]
      rfl

end Arena

end Mixdown
