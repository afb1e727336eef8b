import Mixdown.Arena
import Mixdown.Proofs.Column

/-!
The segments of an arena lie side by side. Counted by the arena's own shape they are its buffers, so that
what is written to one of them is found in one row and leaves all others alone.
-/

namespace Mixdown

/-- A position lies in a segment. -/
def Segment.Contains (segment : Segment) (position : Nat) : Prop :=
  segment.start ≤ position ∧ position < segment.stop

namespace Arena

/-- An arena that was created, or made from rows, and then written to. -/
inductive Reached : Arena → Prop where
  | create {buffers frames : Nat} {arena : Arena} (made : create buffers frames = .ok arena) :
    Reached arena
  | ofRows {rows : List (List Int32)} {arena : Arena} (fits : rows.flatten.length < addressSpace)
    (made : ofRows rows = .ok arena) : Reached arena
  | put {arena after : Arena} {position : Nat} {sample : Int32} (earlier : Reached arena)
    (written : arena.put position sample = .ok after) : Reached after
  | putIn {arena after : Arena} {index position : Nat} {sample : Int32} (earlier : Reached arena)
    (written : arena.putIn index position sample = .ok after) : Reached after
  | splice {arena after : Arena} {start : Nat} {items : List Int32} (earlier : Reached arena)
    (written : arena.splice start items = .ok after) : Reached after
  | fill {arena : Arena} (sample : Int32) (earlier : Reached arena) : Reached (arena.fill sample)

/-- The buffers fill the arena. -/
def Tiled (arena : Arena) : Prop := arena.size = arena.buffers * arena.frames

/-- An arena has the shape and the size of another one. -/
structure SameShape (after before : Arena) : Prop where
  buffers : after.buffers = before.buffers
  frames : after.frames = before.frames
  size : after.size = before.size

/-- An arena that has kept its shape is tiled as before. -/
theorem SameShape.tiled {after before : Arena} (shape : after.SameShape before)
    (tiled : before.Tiled) : after.Tiled := by
  rw [Tiled, shape.size, shape.buffers, shape.frames]
  exact tiled

/-- An arena that has kept its shape is tiled and addressed as before. -/
theorem SameShape.sound {after before : Arena} (shape : after.SameShape before)
    (sound : before.Tiled ∧ before.size < addressSpace) :
    after.Tiled ∧ after.size < addressSpace :=
  ⟨shape.tiled sound.1, by rw [shape.size]; exact sound.2⟩

/-- Items stand in an arena from a position on, and all else is as in another one. -/
structure Written (before : Arena) (start : Nat) (items : List Int32) (after : Arena) : Prop where
  shape : after.SameShape before
  cells : ∀ position, after.samples[position]? =
    if start ≤ position ∧ position < start + items.length then items[position - start]?
    else before.samples[position]?

variable {arena after : Arena}

/-- A sample that is put at a position inside the arena stands there. -/
theorem put_written {position : Nat} (inside : position < arena.size) (sample : Int32) :
    ∃ after, arena.put position sample = .ok after ∧ arena.Written position [sample] after := by
  refine ⟨{ arena with samples := arena.samples.setIfInBounds position sample }, ?_,
    ⟨rfl, rfl, Array.size_setIfInBounds⟩, fun other => ?_⟩
  · rw [put, store_eq_ok inside]
    rfl
  · -- Of all positions only the one that is written to holds the sample.
    rw [Array.getElem?_setIfInBounds, List.length_singleton]
    by_cases same : position = other
    · subst same
      have room : position < arena.samples.size := inside
      rw [if_pos rfl, if_pos room, if_pos (by omega), Nat.sub_self, List.getElem?_cons_zero]
    · rw [if_neg same, if_neg (by omega)]

/-- Items that are spliced in before the end of the arena stand there. -/
theorem splice_written {start : Nat} {items : List Int32}
    (inside : start + items.length ≤ arena.size) :
    ∃ after, arena.splice start items = .ok after ∧ arena.Written start items after := by
  obtain ⟨written, run, size, cells⟩ := write_eq arena.samples start items inside
  refine ⟨{ arena with samples := written }, ?_, ⟨rfl, rfl, size⟩, cells⟩
  rw [splice, if_neg (Nat.not_lt.mpr inside), run]
  rfl

/-- Putting a sample leaves the shape. -/
theorem shape_of_put {position : Nat} {sample : Int32}
    (written : arena.put position sample = .ok after) : after.SameShape arena := by
  obtain ⟨samples, stored, written⟩ := bind_eq_ok.mp written
  obtain ⟨-, rfl⟩ := eq_of_store stored
  obtain rfl := Except.ok.inj written
  exact ⟨rfl, rfl, Array.size_setIfInBounds⟩

/-- Putting a sample into a buffer leaves the shape. -/
theorem shape_of_putIn {index position : Nat} {sample : Int32}
    (written : arena.putIn index position sample = .ok after) : after.SameShape arena := by
  obtain ⟨segment, -, written⟩ := bind_eq_ok.mp written
  split at written
  · exact shape_of_put written
  · cases written

/-- Splicing items in leaves the shape. -/
theorem shape_of_splice {start : Nat} {items : List Int32}
    (written : arena.splice start items = .ok after) : after.SameShape arena := by
  -- Items that pass the end are refused, and others are written as they stand.
  by_cases past : arena.size < start + items.length
  · rw [splice, if_pos past] at written
    cases written
  · obtain ⟨other, same, stands⟩ := splice_written (Nat.not_lt.mp past)
    obtain rfl := Except.ok.inj (same.symm.trans written)
    exact stands.shape

/-- A created arena is tiled, and memory can address it. -/
theorem tiled_of_create {buffers frames : Nat} (made : create buffers frames = .ok arena) :
    arena.Tiled ∧ arena.size < addressSpace := by
  -- The number of samples was checked before there was any.
  obtain ⟨count, checked, made⟩ := bind_eq_ok.mp made
  rw [checkedSize] at checked
  split at checked
  · next fits =>
    obtain rfl := Except.ok.inj checked
    split at made
    · cases made
    · obtain rfl := Except.ok.inj made
      exact ⟨Array.size_replicate, by rw [size, Array.size_replicate]; exact fits⟩
  · cases checked

section Even

variable {rows : List (List Int32)} {frames : Nat} (even : ∀ row ∈ rows, row.length = frames)

include even

/-- Rows of one length hold as many samples as they have places. -/
theorem length_flatten_eq : rows.flatten.length = rows.length * frames := by
  -- All rows have the same length.
  induction rows with
  | nil => rw [List.flatten_nil, List.length_nil, List.length_nil, Nat.zero_mul]
  | cons row rows ih =>
    rw [List.flatten_cons, List.length_append, even row (by simp),
      ih fun other here => even other (List.mem_cons_of_mem row here), List.length_cons,
      Nat.succ_mul, Nat.add_comm]

/-- A sample of a row stands in the samples of all rows behind those of the rows before it. -/
theorem getElem?_flatten_eq (index : Nat) {instant : Nat} (early : instant < frames) :
    rows.flatten[index * frames + instant]? = rows[index]?.bind (·[instant]?) := by
  induction rows generalizing index with
  | nil => rfl
  | cons row rows ih =>
    have first : row.length = frames := even row (by simp)
    have others := fun other here => even other (List.mem_cons_of_mem row here)
    rw [List.flatten_cons]
    cases index with
    | zero =>
      rw [Nat.zero_mul, Nat.zero_add, List.getElem?_append_left (by omega), List.getElem?_cons_zero]
      rfl
    | succ index =>
      -- All of the first row lies before the row that is asked for.
      rw [Nat.succ_mul, List.getElem?_append_right (by omega), List.getElem?_cons_succ,
        show index * frames + frames + instant - row.length = index * frames + instant by omega,
        ih others]

/-- Rows of one length make up an arena, in which each is a buffer. -/
theorem ofRows_even : ∃ arena, ofRows rows = .ok arena ∧ arena.buffers = rows.length ∧
    arena.samples = rows.flatten.toArray ∧ ∀ row ∈ rows, row.length = arena.frames := by
  -- The length of the first row, if there is one, is that of all.
  have first : ∀ row ∈ rows, row.length = (rows.head?.map List.length).getD 0 := by
    intro row here
    cases rows with
    | nil => cases here
    | cons head rows => exact (even row here).trans (even head (by simp)).symm
  exact ⟨_, if_pos (List.all_eq_true.mpr fun row here => decide_eq_true (first row here)), rfl, rfl,
    first⟩

end Even

/-- An arena that was made of rows has rows of one length for its buffers. -/
theorem even_of_ofRows {rows : List (List Int32)} (made : ofRows rows = .ok arena) :
    (∀ row ∈ rows, row.length = arena.frames) ∧ arena.buffers = rows.length ∧
      arena.samples = rows.flatten.toArray := by
  -- Rows of different lengths are refused.
  simp only [ofRows] at made
  split at made
  · next even =>
    obtain rfl := Except.ok.inj made
    exact ⟨fun row here => of_decide_eq_true (List.all_eq_true.mp even row here), rfl, rfl⟩
  · cases made

/-- An arena that was made of rows is tiled, and as large as all rows together. -/
theorem tiled_of_ofRows {rows : List (List Int32)} (made : ofRows rows = .ok arena) :
    arena.Tiled ∧ arena.size = rows.flatten.length := by
  obtain ⟨even, buffers, samples⟩ := even_of_ofRows made
  have size : arena.size = rows.flatten.length := by rw [Arena.size, samples, List.size_toArray]
  exact ⟨by rw [Tiled, size, buffers, length_flatten_eq even], size⟩

/-- However an arena was made and written to, it is tiled, and memory can address it. -/
theorem Reached.sound (reached : arena.Reached) : arena.Tiled ∧ arena.size < addressSpace := by
  -- Making an arena tiles it, and whatever is written later keeps its shape.
  induction reached with
  | create made => exact tiled_of_create made
  | ofRows fits made =>
    obtain ⟨tiled, size⟩ := tiled_of_ofRows made
    exact ⟨tiled, by rw [size]; exact fits⟩
  | put _ written ih => exact (shape_of_put written).sound ih
  | putIn _ written ih => exact (shape_of_putIn written).sound ih
  | splice _ written ih => exact (shape_of_splice written).sound ih
  | @fill before sample _ ih =>
    have shape : (before.fill sample).SameShape before := ⟨rfl, rfl, Array.size_replicate⟩
    exact shape.sound ih

/-- A segment is found just when it ends inside the arena. -/
theorem segment?_eq_some_iff (fits : arena.size < addressSpace) {index count : Nat}
    {segment : Segment} : arena.segment? index count = some segment ↔
      (index + 1) * count ≤ arena.size ∧ segment = ⟨index * count, (index + 1) * count⟩ := by
  rw [Nat.succ_mul, segment?]
  constructor
  · intro found
    split at found
    · next inside => exact ⟨inside.2.2, (Option.some.inj found).symm⟩
    · cases found
  · rintro ⟨inside, rfl⟩
    -- What ends inside the arena begins and ends inside the address space.
    exact if_pos ⟨by omega, by omega, inside⟩

namespace Tiled

variable (tiled : arena.Tiled)

include tiled

/-- A buffer that is counted ends inside the arena. -/
theorem buffer_inside {index : Nat} (counted : index < arena.buffers) :
    index * arena.frames + arena.frames ≤ arena.size := by
  rw [show arena.size = _ from tiled, ← Nat.succ_mul]
  exact Nat.mul_le_mul_right arena.frames counted

/-- A buffer that is counted has its segment. -/
theorem bufferSegment_eq {index : Nat} (counted : index < arena.buffers) :
    arena.bufferSegment index =
      .ok ⟨index * arena.frames, index * arena.frames + arena.frames⟩ :=
  if_pos ⟨counted, tiled.buffer_inside counted⟩

end Tiled

/-- The samples of a buffer, wherever the arena ends. -/
def row (arena : Arena) (index : Nat) : List Int32 :=
  arena.slice ⟨index * arena.frames, index * arena.frames + arena.frames⟩

/-- The samples of all buffers. -/
def rows (arena : Arena) : List (List Int32) := (List.range arena.buffers).map arena.row

/-- A sample of a buffer stands at its place behind all earlier buffers. -/
theorem getElem?_row (arena : Arena) (index instant : Nat) : (arena.row index)[instant]? =
    if instant < arena.frames then arena.samples[index * arena.frames + instant]? else none := by
  -- A row ends where its buffer does or where the arena does.
  simp only [row, slice, Array.getElem?_toList, Array.getElem?_extract]
  by_cases early : instant < arena.frames
  · by_cases inside : index * arena.frames + instant < arena.samples.size
    · rw [if_pos early, if_pos (by omega)]
    · rw [if_pos early, if_neg (by omega), Array.getElem?_eq_none (by omega)]
  · rw [if_neg early, if_neg (by omega)]

namespace Tiled

variable (tiled : arena.Tiled)

include tiled

/-- The samples of a buffer that is counted are read without a fault. -/
theorem buffer_eq {index : Nat} (counted : index < arena.buffers) :
    arena.buffer index = .ok (arena.row index) := by
  rw [buffer, tiled.bufferSegment_eq counted]
  rfl

/-- All buffers are read without a fault. -/
theorem toRows_eq : arena.toRows = .ok arena.rows :=
  mapM_eq_ok fun _ here => tiled.buffer_eq (List.mem_range.mp here)

/-- A buffer that is counted is full. -/
theorem length_row {index : Nat} (counted : index < arena.buffers) :
    (arena.row index).length = arena.frames := by
  have inside : _ ≤ arena.samples.size := tiled.buffer_inside counted
  simp only [row, slice, Array.length_toList, Array.size_extract]
  omega

end Tiled

namespace Written

variable {index offset : Nat} {items : List Int32}

/-- Items written inside one buffer leave the rows of all others. -/
theorem row_other (inside : offset + items.length ≤ arena.frames)
    (written : arena.Written (index * arena.frames + offset) items after) {other : Nat}
    (apart : other ≠ index) : after.row other = arena.row other := by
  apply List.ext_getElem?
  intro instant
  rw [getElem?_row, getElem?_row, written.shape.frames, written.cells]
  by_cases early : instant < arena.frames
  · rw [if_pos early, if_pos early, if_neg]
    -- A position among those written would lie in the buffer that was written to.
    rintro ⟨low, high⟩
    have within : other * arena.frames + instant - index * arena.frames < arena.frames := by omega
    exact apart (position_inj early within (by omega)).1
  · rw [if_neg early, if_neg early]

/-- Items written inside a buffer stand in its row, between what was in front of them and behind. -/
theorem row_own (full : (arena.row index).length = arena.frames)
    (inside : offset + items.length ≤ arena.frames)
    (written : arena.Written (index * arena.frames + offset) items after) :
    after.row index = (arena.row index).take offset ++ items ++
      (arena.row index).drop (offset + items.length) := by
  have front : ((arena.row index).take offset).length = offset := by
    rw [List.length_take, full]
    omega
  apply List.ext_getElem?
  intro instant
  rw [getElem?_row, written.shape.frames, written.cells, List.append_assoc]
  rcases Nat.lt_or_ge instant offset with before | reached
  · -- In front of the items the row is as before.
    rw [if_pos (by omega), if_neg (by omega), List.getElem?_append_left (by omega),
      List.getElem?_take_of_lt before, getElem?_row, if_pos (by omega)]
  -- Behind the front come the items, and then the rest of the row.
  rcases Nat.lt_or_ge instant (offset + items.length) with among | behind
  · rw [if_pos (by omega), if_pos (by omega), List.getElem?_append_right (by omega), front,
      List.getElem?_append_left (by omega)]
    congr 1
    omega
  · -- Behind the items the row is as before, until it ends.
    have away : ¬(index * arena.frames + offset ≤ index * arena.frames + instant ∧
        index * arena.frames + instant < index * arena.frames + offset + items.length) := by omega
    have shift : offset + items.length + (instant - offset - items.length) = instant := by omega
    rw [if_neg away, List.getElem?_append_right (by omega), front,
      List.getElem?_append_right (by omega), List.getElem?_drop, shift, getElem?_row]

/-- Items written inside one buffer are found in its row, and all other rows are as before. -/
theorem rows_eq (tiled : arena.Tiled) (counted : index < arena.buffers)
    (inside : offset + items.length ≤ arena.frames)
    (written : arena.Written (index * arena.frames + offset) items after) :
    after.rows = arena.rows.modify index fun row =>
      row.take offset ++ items ++ row.drop (offset + items.length) := by
  -- Rows do not overlap, so that what is written to one is not seen in another.
  apply List.ext_getElem
  · simp only [rows, List.length_modify, List.length_map, List.length_range, written.shape.buffers]
  · intro other _ _
    simp only [rows, List.getElem_modify, List.getElem_map, List.getElem_range]
    by_cases same : index = other
    · subst same
      rw [if_pos rfl, written.row_own (tiled.length_row counted) inside]
    · rw [if_neg same, written.row_other inside (Ne.symm same)]

end Written

/-- The rows of an arena that was made of rows are those rows. -/
theorem toRows_ofRows {rows : List (List Int32)} {frames : Nat}
    (even : ∀ row ∈ rows, row.length = frames) :
    ∃ made, ofRows rows = .ok made ∧ made.toRows = .ok rows := by
  -- Each row is read back from where it stands among the flattened ones.
  obtain ⟨made, ran, buffers, samples, full⟩ := ofRows_even even
  have tiled : made.Tiled := (tiled_of_ofRows ran).1
  refine ⟨made, ran, tiled.toRows_eq.trans (congrArg Except.ok ?_)⟩
  apply List.ext_getElem
  · simp only [Arena.rows, List.length_map, List.length_range, buffers]
  · intro index _ counted
    simp only [Arena.rows, List.getElem_map, List.getElem_range]
    apply List.ext_getElem?
    intro instant
    rw [getElem?_row, samples, List.getElem?_toArray]
    have length := full rows[index] (List.getElem_mem counted)
    split
    · next early =>
      rw [getElem?_flatten_eq full index early, List.getElem?_eq_getElem counted, Option.bind_some]
    · next late => rw [List.getElem?_eq_none (by omega)]

/-- Segments of one length with different indices have no position in common. -/
theorem segments_apart {index other count : Nat} (apart : index ≠ other) (position : Nat) :
    ¬(Segment.Contains ⟨index * count, (index + 1) * count⟩ position ∧
      Segment.Contains ⟨other * count, (other + 1) * count⟩ position) := by
  simp only [Segment.Contains, Nat.succ_mul]
  rintro ⟨⟨low, high⟩, lower, upper⟩
  -- The position would be the same one behind two different starts.
  have same : index * count + (position - index * count) =
      other * count + (position - other * count) := by omega
  exact apart (position_inj (by omega) (by omega) same).1

/-- A sample is put into a buffer as it is put into the arena behind the start of the buffer. -/
theorem Tiled.putIn_eq (tiled : arena.Tiled) {index position : Nat}
    (counted : index < arena.buffers) (inside : position < arena.frames) (sample : Int32) :
    arena.putIn index position sample = arena.put (index * arena.frames + position) sample := by
  rw [putIn, tiled.bufferSegment_eq counted, ok_bind]
  exact if_pos inside

/-- Items spliced into a buffer are found in its row, and all other rows are as before. -/
theorem Tiled.splice_rows (tiled : arena.Tiled) {index offset : Nat} {items : List Int32}
    (counted : index < arena.buffers) (inside : offset + items.length ≤ arena.frames) :
    ∃ after, arena.splice (index * arena.frames + offset) items = .ok after ∧
      after.toRows = .ok (arena.rows.modify index fun row =>
        row.take offset ++ items ++ row.drop (offset + items.length)) := by
  -- Items that fit into their row fit into the arena.
  have ends := tiled.buffer_inside counted
  have room : index * arena.frames + offset + items.length ≤ arena.size := by omega
  obtain ⟨after, ran, written⟩ := splice_written room
  exact ⟨after, ran, by
    rw [(written.shape.tiled tiled).toRows_eq, written.rows_eq tiled counted inside]⟩

/-- A sample put into a buffer is found in its row, and all other rows are as before. -/
theorem Tiled.put_rows (tiled : arena.Tiled) {index position : Nat}
    (counted : index < arena.buffers) (inside : position < arena.frames) (sample : Int32) :
    ∃ after, arena.put (index * arena.frames + position) sample = .ok after ∧
      after.toRows = .ok (arena.rows.modify index (·.set position sample)) := by
  have ends := tiled.buffer_inside counted
  have room : index * arena.frames + position < arena.size := by omega
  obtain ⟨after, ran, written⟩ := put_written room sample
  refine ⟨after, ran, ?_⟩
  rw [(written.shape.tiled tiled).toRows_eq, written.rows_eq tiled counted inside]
  congr 1
  -- In the row that is written to, what stands in front and behind is what setting the sample leaves.
  apply List.ext_getElem
  · rw [List.length_modify, List.length_modify]
  · intro other _ _
    simp only [rows, List.getElem_modify, List.getElem_map, List.getElem_range]
    split
    · next same =>
      subst same
      have long : position < (arena.row index).length := by rw [tiled.length_row counted]; exact inside
      rw [List.set_eq_take_append_cons_drop, if_pos long, List.length_singleton, List.append_assoc,
        List.singleton_append]
    · rfl

/--
However an arena was made and written to, a segment is found just when it ends inside the arena, in
numbers that have no end, and segments of one length with different indices have no position in common. By
the arena's own shape the segments are the buffers, which are all read: what is put into a buffer, by its
index or by its position in the whole arena, is found in that row and in no other. Rows of one length are
read back from the arena that is made of them.
-/
theorem segments_tile (reached : arena.Reached) :
    (∀ index count segment, arena.segment? index count = some segment ↔
        (index + 1) * count ≤ arena.size ∧ segment = ⟨index * count, (index + 1) * count⟩) ∧
      (∀ index other count left right, index ≠ other → arena.segment? index count = some left →
        arena.segment? other count = some right →
        ∀ position, ¬(left.Contains position ∧ right.Contains position)) ∧
      (∃ rows, arena.toRows = .ok rows ∧ rows.length = arena.buffers ∧
        ∀ index, index < arena.buffers → ∃ segment row,
          arena.segment? index arena.frames = some segment ∧
          arena.bufferSegment index = .ok segment ∧ arena.slice segment = row ∧
          arena.buffer index = .ok row ∧ rows[index]? = some row ∧ row.length = arena.frames ∧
          (∀ position sample, position < arena.frames → ∃ after,
            arena.putIn index position sample = .ok after ∧
            arena.put (segment.start + position) sample = .ok after ∧
            after.toRows = .ok (rows.modify index (·.set position sample))) ∧
          ∀ offset items, offset + items.length ≤ arena.frames → ∃ after,
            arena.splice (segment.start + offset) items = .ok after ∧
            after.toRows = .ok (rows.modify index fun row =>
              row.take offset ++ items ++ row.drop (offset + items.length))) ∧
      ∀ (rows : List (List Int32)) frames, (∀ row ∈ rows, row.length = frames) →
        ∃ made, ofRows rows = .ok made ∧ made.toRows = .ok rows := by
  -- An arena that is reached is tiled by its rows, and no index into it overflows.
  obtain ⟨tiled, fits⟩ := reached.sound
  refine ⟨fun index count segment => segment?_eq_some_iff fits, ?_, ?_,
    fun rows frames even => toRows_ofRows even⟩
  · -- Segments of one length are apart, wherever they stand.
    intro index other count left right apart first second position
    obtain ⟨-, rfl⟩ := (segment?_eq_some_iff fits).mp first
    obtain ⟨-, rfl⟩ := (segment?_eq_some_iff fits).mp second
    exact segments_apart apart position
  refine ⟨arena.rows, tiled.toRows_eq, by simp only [rows, List.length_map, List.length_range],
    fun index counted => ?_⟩
  have inside := tiled.buffer_inside counted
  refine ⟨⟨index * arena.frames, index * arena.frames + arena.frames⟩, arena.row index, ?_,
    tiled.bufferSegment_eq counted, rfl, tiled.buffer_eq counted, ?_, tiled.length_row counted, ?_, ?_⟩
  · rw [segment?_eq_some_iff fits, Nat.succ_mul]
    exact ⟨inside, rfl⟩
  · rw [rows, List.getElem?_map, List.getElem?_range counted, Option.map_some]
  · intro position sample early
    obtain ⟨after, ran, shown⟩ := tiled.put_rows counted early sample
    exact ⟨after, (tiled.putIn_eq counted early sample).trans ran, ran, shown⟩
  · exact fun offset items room => tiled.splice_rows counted room

/-- In an arena that was made of rows and written to, segments of another length than the buffers are
found up to the end, and a further sample reaches one row. -/
theorem segments_tile_stereo :
    let arena : Arena := ⟨2, 3, #[1, 2, 3, 4, 5, 7]⟩
    (arena.Reached ∧ 1 ≠ 2 ∧ 1 < arena.buffers ∧ 0 < arena.frames) ∧
      (arena.segment? 2 2 = some ⟨4, 6⟩ ∧ arena.segment? 3 2 = none ∧
        arena.segment? (addressSpace - 1) 2 = none) ∧
      (∀ position, ¬(Segment.Contains ⟨2, 4⟩ position ∧ Segment.Contains ⟨4, 6⟩ position)) ∧
      ∃ after, arena.putIn 1 0 9 = .ok after ∧ after.toRows = .ok [[1, 2, 3], [9, 5, 7]] := by
  intro arena
  have made : ofRows [[1, 2, 3], [4, 5, 6]] = .ok ⟨2, 3, #[1, 2, 3, 4, 5, 6]⟩ := by decide
  have written : Arena.put ⟨2, 3, #[1, 2, 3, 4, 5, 6]⟩ 5 7 = .ok arena := by decide
  -- The arena is made of two rows, of which the second is then written to.
  have reached : arena.Reached := .put (.ofRows (by decide) made) written
  obtain ⟨found, apart, ⟨rows, read, -, buffers⟩, -⟩ := segments_tile reached
  have shown : arena.toRows = .ok [[1, 2, 3], [4, 5, 7]] := by decide
  obtain rfl := Except.ok.inj (read.symm.trans shown)
  have first : arena.segment? 1 2 = some ⟨2, 4⟩ := (found 1 2 _).mpr (by decide)
  have second : arena.segment? 2 2 = some ⟨4, 6⟩ := (found 2 2 _).mpr (by decide)
  obtain ⟨segment, row, -, -, -, -, -, -, put, -⟩ := buffers 1 (by decide)
  obtain ⟨after, ran, -, changed⟩ := put 0 9 (by decide)
  exact ⟨⟨reached, by decide, by decide, by decide⟩, ⟨second, by decide, by decide⟩,
    apart 1 2 2 _ _ (by decide) first second, after, ran, changed⟩

end Arena

end Mixdown
