import Mixdown.Proofs.Room
import Mixdown.Renderer

/-! Rows are loaded into the buffers column by column, and read back from them the same way. -/

namespace Mixdown

/-- A column of silence. -/
def Column.silence : Column := fun _ => 0

namespace Rows

/-- The samples of all rows at one instant; a row that has ended is silent. -/
def columnAt (rows : Rows) (instant : Nat) : Column :=
  fun row => (rows[row]?.bind (·[instant]?)).getD 0

/-- The columns of rows up to a length. -/
def columns (rows : Rows) (length : Nat) : List Column := (List.range length).map rows.columnAt

/-- There is one column for every sample. -/
@[simp] theorem columns_length (rows : Rows) (length : Nat) : (rows.columns length).length = length := by
  simp [columns]

/-- The rows that columns make up. -/
def ofColumns (channels : Nat) (columns : List Column) : Rows :=
  (List.range channels).map fun channel => columns.map fun column => column channel

/-- Columns make up one row for each channel. -/
@[simp] theorem ofColumns_length (channels : Nat) (columns : List Column) :
    (ofColumns channels columns).length = channels := by
  simp [ofColumns]

/-- Columns one behind the other make up rows one behind the other. -/
theorem ofColumns_append (channels : Nat) (front back : List Column) :
    ofColumns channels (front ++ back) =
      List.zipWith (· ++ ·) (ofColumns channels front) (ofColumns channels back) := by
  simp only [ofColumns, List.map_append, List.zipWith_map, List.zipWith_self]

/-- The columns behind some others are those of the rows without their fronts. -/
theorem columns_add (rows : Rows) (front back : Nat) :
    rows.columns (front + back) =
      rows.columns front ++ columns (rows.map (·.drop front)) back := by
  -- The instants behind the front are counted from its end.
  simp only [columns, List.range_add, List.map_append, List.map_map]
  congr 1
  refine List.map_congr_left fun instant _ => ?_
  funext row
  simp only [Function.comp_apply, columnAt, List.getElem?_map]
  cases rows[row]? with
  | none => rfl
  | some samples => simp

/-- The shortest of some rows bounds all of them, and is one of them. -/
theorem shortest_eq {rows : Rows} {length : Nat} (found : ∃ row ∈ rows, row.length = length)
    (least : ∀ row ∈ rows, length ≤ row.length) : rows.shortest = length := by
  -- Being attained and being a bound are what makes a least length.
  have least? : (rows.map List.length).min? = some length := by
    refine List.min?_eq_some_iff.mpr ⟨List.mem_map.mpr found, fun other here => ?_⟩
    obtain ⟨row, there, rfl⟩ := List.mem_map.mp here
    exact least row there
  rw [shortest, least?, Option.getD_some]

/-- There is a row that is no longer than the shortest, unless there are no rows. -/
theorem exists_shortest {rows : Rows} (some : rows ≠ []) :
    (∃ row ∈ rows, row.length = rows.shortest) ∧ ∀ row ∈ rows, rows.shortest ≤ row.length := by
  -- Only an empty list has no least length.
  obtain ⟨least, found⟩ : ∃ least, (rows.map List.length).min? = Option.some least := by
    cases found : (rows.map List.length).min? with
    | none => simp_all
    | some least => exact ⟨least, rfl⟩
  obtain ⟨attained, bound⟩ := List.min?_eq_some_iff.mp found
  rw [shortest, found, Option.getD_some]
  exact ⟨List.mem_map.mp attained, fun row here => bound _ (List.mem_map.mpr ⟨row, here, rfl⟩)⟩

variable {front back : Rows} {length : Nat}

/-- Rows of one length in front of others make each of these longer by that length. -/
theorem shortest_append (some : back ≠ []) (same : front.length = back.length)
    (even : ∀ row ∈ front, row.length = length) :
    shortest (List.zipWith (· ++ ·) front back) = length + back.shortest := by
  -- The row that is shortest behind is shortest in the whole, since all fronts are alike.
  obtain ⟨⟨row, here, attained⟩, least⟩ := exists_shortest some
  refine shortest_eq ?_ ?_
  · obtain ⟨index, inside, rfl⟩ := List.mem_iff_getElem.mp here
    refine ⟨front[index] ++ back[index], ?_, ?_⟩
    · exact List.mem_iff_getElem.mpr ⟨index, by simpa [same] using inside, by simp⟩
    · rw [List.length_append, even _ (List.getElem_mem _), attained]
  · intro joined there
    obtain ⟨index, inside, rfl⟩ := List.mem_iff_getElem.mp there
    rw [List.length_zipWith] at inside
    rw [List.getElem_zipWith, List.length_append, even _ (List.getElem_mem _)]
    exact Nat.add_le_add_left (least _ (List.getElem_mem _)) length

/-- The columns of rows one behind the other are those of the rows in front and of those behind. -/
theorem columns_append (same : front.length = back.length)
    (even : ∀ row ∈ front, row.length = length) (more : Nat) :
    columns (List.zipWith (· ++ ·) front back) (length + more) =
      front.columns length ++ back.columns more := by
  -- Dropping the fronts gives the rows behind, and the columns before are those of the fronts.
  have behind : (List.zipWith (· ++ ·) front back).map (·.drop length) = back := by
    apply List.ext_getElem
    · simp [same]
    · intro index inside _
      have inside : index < front.length := by
        simp only [List.length_map, List.length_zipWith] at inside
        omega
      rw [List.getElem_map, List.getElem_zipWith]
      exact List.drop_left' (even _ (List.getElem_mem inside))
  rw [columns_add, behind]
  congr 1
  refine List.map_congr_left fun instant early => ?_
  -- In front a sample is found in the front of its row, which is as long as all others.
  funext row
  have early := List.mem_range.mp early
  simp only [columnAt, List.getElem?_zipWith]
  cases inFront : front[row]? with
  | none => rfl
  | some samples =>
    have long : samples.length = length := even samples (List.mem_of_getElem? inFront)
    obtain ⟨inside, -⟩ := List.getElem?_eq_some_iff.mp inFront
    rw [List.getElem?_eq_getElem (same ▸ inside)]
    simp only [Option.bind_some]
    rw [List.getElem?_append_left (long.symm ▸ early)]

end Rows

namespace Renderer

/-- A row with silence behind it has a sample at every instant of a frame. -/
theorem padded_getElem? (row : List Int32) {length instant : Nat} (early : instant < length) :
    (row ++ List.replicate (length - row.length) 0)[instant]? = some ((row[instant]?).getD 0) := by
  -- The sample is the row's own or comes out of the silence behind it.
  rcases Nat.lt_or_ge instant row.length with inside | outside
  · rw [List.getElem?_append_left inside, List.getElem?_eq_getElem inside, Option.getD_some]
  · rw [List.getElem?_append_right outside, List.getElem?_replicate, if_pos (by omega),
      List.getElem?_eq_none outside, Option.getD_none]

/-- Rows are loaded into the buffers from a channel on, and silence behind them. -/
theorem loadRows_eq (arena : Arena) (channel : Nat) (rows : Rows)
    (inside : channel + rows.length ≤ arena.buffers)
    (size : arena.size = arena.buffers * arena.frames)
    (short : ∀ row ∈ rows, row.length ≤ arena.frames) :
    ∃ samples, loadRows arena channel rows = .ok { arena with samples } ∧
      samples.size = arena.size ∧
      ∀ instant, instant < arena.frames → columnAt samples arena.frames instant = fun buffer =>
        if channel ≤ buffer ∧ buffer < channel + rows.length
        then rows.columnAt instant (buffer - channel)
        else columnAt arena.samples arena.frames instant buffer := by
  induction rows generalizing arena channel with
  | nil =>
    refine ⟨arena.samples, rfl, rfl, fun instant _ => ?_⟩
    funext buffer
    rw [if_neg (by simp only [List.length_nil]; omega)]
  | cons row rows ih =>
    -- The first row fills its buffer up to the end of the frame, with silence if it is short.
    obtain ⟨own, behind⟩ := List.forall_mem_cons.mp short
    rw [List.length_cons] at inside
    have within : channel * arena.frames + arena.frames ≤ arena.size := by
      rw [size, ← Nat.succ_mul]
      exact Nat.mul_le_mul_right _ (by omega)
    have segment : arena.bufferSegment channel =
        .ok ⟨channel * arena.frames, channel * arena.frames + arena.frames⟩ := by
      rw [Arena.bufferSegment, if_pos ⟨by omega, within⟩]
    obtain ⟨first, splice, firstSize, cells⟩ := arena.splice_buffer within
      (row ++ List.replicate (arena.frames - row.length) 0) (by simp; omega)
    obtain ⟨samples, run, sizes, loaded⟩ := ih { arena with samples := first } (channel + 1)
      (by simp only; omega) (firstSize.trans size) behind
    refine ⟨samples, ?_, sizes.trans firstSize, fun instant early => ?_⟩
    · simp only [loadRows, segment, splice, ok_bind]
      exact run
    · -- The row is in place for the instant, and those behind it come into later buffers.
      have placed : columnAt first arena.frames instant = Function.update
          (columnAt arena.samples arena.frames instant) channel ((row[instant]?).getD 0) := by
        have cell := congrArg (·[instant]?) cells
        simpa [Mixdown.columns, early, List.getElem?_zipWith, padded_getElem? row early] using cell
      rw [loaded instant early]
      funext buffer
      simp only [placed, List.length_cons]
      rcases Nat.lt_trichotomy buffer channel with before | rfl | behind
      · rw [if_neg (by omega), if_neg (by omega), Function.update_of_ne (by omega)]
      · -- Later rows leave this buffer to the first one.
        rw [if_neg (by omega), if_pos (by omega), Function.update_self, Nat.sub_self]
        rfl
      · by_cases here : buffer < channel + (rows.length + 1)
        · rw [if_pos (by omega), if_pos (by omega),
            show buffer - channel = buffer - (channel + 1) + 1 by omega]
          rfl
        · rw [if_neg (by omega), if_neg (by omega), Function.update_of_ne (by omega)]

/-- A frame whose columns are those of rows up to a length is silent behind it. -/
theorem columns_padded {samples : Array Int32} {rows : Rows} {frame length : Nat}
    (fits : length ≤ frame) (loaded : ∀ instant, instant < frame →
      columnAt samples frame instant =
        if instant < length then rows.columnAt instant else Column.silence) :
    columns samples frame =
      rows.columns length ++ List.replicate (frame - length) Column.silence := by
  apply List.ext_getElem
  · simp [columns, Rows.columns]
    omega
  intro instant early _
  have early : instant < frame := by simpa [columns] using early
  simp only [columns, List.getElem_map, List.getElem_range, loaded instant early]
  -- An instant is that of a loaded column or of the silence behind them.
  split
  · next inside =>
    rw [List.getElem_append_left (by simpa [Rows.columns] using inside)]
    simp [Rows.columns]
  · next outside =>
    rw [List.getElem_append_right (by simpa [Rows.columns] using outside)]
    simp

/-- The first samples of a frame are loaded for all channels, with silence behind them. -/
theorem loadRows_columns {mixer : Mixer} {channels : Nat} (room : mixer.Room channels)
    {rows : Rows} (full : rows.length = channels) {length : Nat} (fits : length ≤ mixer.frame) :
    ∃ samples, loadRows mixer.arena 0 ((rows.take channels).map (·.take length)) =
        .ok { mixer.arena with samples } ∧ samples.size = mixer.arena.size ∧
      columns samples mixer.frame =
        rows.columns length ++ List.replicate (mixer.frame - length) Column.silence := by
  subst full
  rw [List.take_length]
  obtain ⟨samples, run, size, cells⟩ := loadRows_eq mixer.arena 0
    (rows.map (·.take length)) (by rw [room.buffers]; simp)
    (by rw [room.size, room.buffers, room.frames]) (by
      intro row here
      obtain ⟨whole, -, rfl⟩ := List.mem_map.mp here
      rw [room.frames]
      exact (List.length_take_le _ _).trans fits)
  rw [room.frames, List.length_map] at cells
  refine ⟨samples, run, size, columns_padded fits fun instant early => ?_⟩
  rw [cells instant early]
  funext buffer
  by_cases used : buffer < rows.length
  · rw [if_pos (by omega), Nat.sub_zero, Rows.columnAt, List.getElem?_map,
      List.getElem?_eq_getElem used]
    -- A row's own buffer has what was taken of the row, and silence behind it.
    split
    · next inside => simp [Rows.columnAt, used, List.getElem?_take_of_lt inside]
    · next outside => simp [Column.silence, outside]
  · -- A buffer behind those of the rows would lie outside the arena.
    have beyond : mixer.arena.samples.size ≤ buffer * mixer.frame + instant := by
      have size : mixer.arena.samples.size = rows.length * mixer.frame := room.size
      rw [size]
      exact (Nat.mul_le_mul_right _ (Nat.not_lt.mp used)).trans (Nat.le_add_right _ _)
    rw [if_neg (by omega), columnAt, Array.getElem?_eq_none beyond, Option.getD_none]
    split
    · simp [Rows.columnAt, List.getElem?_eq_none (Nat.not_lt.mp used)]
    · rfl

/-- The buffers of all channels are read back row by row. -/
theorem readRows_eq {mixer : Mixer} {channels : Nat} (room : mixer.Room channels) (length : Nat) :
    ((List.range channels).mapM fun channel => do
      pure ((← mixer.arena.buffer channel).take length)) =
        .ok (Rows.ofColumns channels (mixer.columns.take length)) := by
  -- Every channel has its buffer inside the arena, so reading never faults.
  refine mapM_eq_ok fun channel here => ?_
  have below := List.mem_range.mp here
  have inside := room.inside below
  have segment : mixer.arena.bufferSegment channel =
      .ok ⟨channel * mixer.frame, channel * mixer.frame + mixer.frame⟩ := by
    rw [Arena.bufferSegment, room.frames, if_pos ⟨by rw [room.buffers]; exact below, inside⟩]
  simp only [Arena.buffer, segment, ok_bind, pure_eq_ok, mixer.arena.slice_buffer inside,
    Mixer.columns, List.map_take]

end Renderer

end Mixdown
