import Mixdown.Proofs.Renderer.Rows

/-!
Rows that are interleaved up to the end of the shortest one come back, cut to that length, when the
samples are dealt to as many rows in turn.
-/

namespace Mixdown

/-- Where a view of items turns one change into another, the view of changed items is a changed view. -/
theorem map_modify {view : α → β} {change : α → α} {shown : β → β}
    (commutes : ∀ item, view (change item) = shown (view item)) (items : List α) (index : Nat) :
    (items.modify index change).map view = (items.map view).modify index shown := by
  -- The change is made at the first item or behind it.
  induction items generalizing index with
  | nil => rw [List.modify_nil, List.map_nil, List.modify_nil]
  | cons item items ih =>
    cases index with
    | zero => simp only [List.modify_zero_cons, List.map_cons, commutes]
    | succ index => simp only [List.modify_succ_cons, List.map_cons, ih]

/-- The item behind some others is changed at the index that is their number. -/
theorem modify_behind (change : α → α) (front back : List α) (item : α) :
    (front ++ item :: back).modify front.length change = front ++ change item :: back := by
  rw [List.modify_eq_take_cons_drop (by simp)]
  simp

namespace Rows

/-- Rows to which samples have gone in turn, from the one that a position belongs to. -/
def dealt (channels : Nat) : (position : Nat) → Rows → (samples : List Int32) → Rows
  | _, rows, [] => rows
  | position, rows, sample :: samples =>
    dealt channels (position + 1) (rows.modify (position % channels) (· ++ [sample])) samples

/-- Samples are dealt to empty rows, from the first one on. -/
theorem deinterleave_eq (channels : Nat) (samples : List Int32) :
    deinterleave channels samples = dealt channels 0 (List.replicate channels []) samples := by
  -- The loop is followed from any position and with any rows.
  have general (position : Nat) (rows : Array (Array Int32)) :
      ((samples.zipIdx position).foldl
          (fun rows placed => rows.modify (placed.2 % channels) (·.push placed.1))
          rows).toList.map Array.toList =
        dealt channels position (rows.toList.map Array.toList) samples := by
    induction samples generalizing position rows with
    | nil => rfl
    | cons sample samples ih =>
      -- Pushing to an array is appending to the list of its items.
      have longer (row : Array Int32) : (row.push sample).toList = row.toList ++ [sample] :=
        Array.toList_push
      rw [List.zipIdx_cons, List.foldl_cons, ih, Array.toList_modify, dealt, ← map_modify longer]
  rw [deinterleave, general, Array.toList_replicate, List.map_replicate]

/-- Samples that are changed one by one are dealt like those before the change. -/
theorem dealt_map (change : Int32 → Int32) (channels position : Nat) (rows : Rows)
    (samples : List Int32) :
    dealt channels position (rows.map (·.map change)) (samples.map change) =
      (dealt channels position rows samples).map (·.map change) := by
  -- Both deal the next sample to the same row, for that is told by its position alone.
  induction samples generalizing position rows with
  | nil => rfl
  | cons sample samples ih =>
    have longer (row : List Int32) : (row ++ [sample]).map change =
        row.map change ++ [change sample] := by
      rw [List.map_append, List.map_singleton]
    rw [List.map_cons, dealt, dealt, ← map_modify longer, ih]

/-- The rows of changed samples are the changed rows. -/
theorem deinterleave_map (change : Int32 → Int32) (channels : Nat) (samples : List Int32) :
    deinterleave channels (samples.map change) =
      (deinterleave channels samples).map (·.map change) := by
  rw [deinterleave_eq, deinterleave_eq, ← dealt_map, List.map_replicate, List.map_nil]

/-- What is left of an instant goes to the rows that have had no sample of it yet. -/
theorem dealt_instant {channels : Nat} (instant : Nat) (front back : Rows) {samples : List Int32}
    (all : front.length + back.length = channels) (own : samples.length = back.length)
    (more : List Int32) :
    dealt channels (instant * channels + front.length) (front ++ back) (samples ++ more) =
      dealt channels ((instant + 1) * channels)
        (front ++ List.zipWith (fun row sample => row ++ [sample]) back samples) more := by
  -- The induction is on the rows that are left, and the others gather in front of them.
  induction back generalizing front samples with
  | nil =>
    obtain rfl := List.length_eq_zero_iff.mp own
    rw [List.length_nil, Nat.add_zero] at all
    rw [List.nil_append, List.zipWith_nil_left, Nat.succ_mul, all]
  | cons row back ih =>
    obtain ⟨sample, samples, rfl⟩ := List.exists_cons_of_length_eq_add_one own
    rw [List.length_cons] at all
    -- As many samples of the instant have gone before as there are rows in front.
    have next : (instant * channels + front.length) % channels = front.length := by
      rw [Nat.mul_comm, Nat.mul_add_mod, Nat.mod_eq_of_lt (by omega)]
    -- The row that has its sample joins those in front.
    have later := ih (front ++ [row ++ [sample]])
      (by rw [List.length_append, List.length_singleton]; omega) (Nat.succ.inj own)
    rw [List.length_append, List.length_singleton, List.append_assoc, List.append_assoc,
      List.singleton_append, List.singleton_append] at later
    rw [List.cons_append, dealt, next, modify_behind, List.zipWith_cons_cons]
    exact later

/-- The samples of all rows up to an instant, interleaved, make up the fronts of the rows. -/
theorem dealt_instants {rows : Rows} {count : Nat} (long : ∀ row ∈ rows, count ≤ row.length)
    (more : List Int32) :
    dealt rows.length 0 (List.replicate rows.length [])
        ((List.range count).flatMap (fun instant => rows.map (·.getD instant 0)) ++ more) =
      dealt rows.length (count * rows.length) (rows.map (·.take count)) more := by
  induction count generalizing more with
  | zero =>
    rw [List.range_zero, List.flatMap_nil, List.nil_append, Nat.zero_mul]
    simp only [List.take_zero, List.map_const']
  | succ count ih =>
    -- The last instant is dealt behind all others, one sample to each row.
    have taken : List.zipWith (fun row sample => row ++ [sample]) (rows.map (·.take count))
        (rows.map (·.getD count 0)) = rows.map (·.take (count + 1)) := by
      rw [List.zipWith_map, List.zipWith_self]
      refine List.map_congr_left fun row here => ?_
      have inside : count < row.length := long row here
      rw [List.getD_eq_getElem?_getD, List.getElem?_eq_getElem inside, Option.getD_some,
        List.take_append_getElem inside]
    have each : (rows.map (·.getD count 0)).length = (rows.map (·.take count)).length := by
      rw [List.length_map, List.length_map]
    have last := dealt_instant count [] (rows.map (·.take count)) (Nat.zero_add _) each more
    rw [List.length_map, List.nil_append, List.nil_append, List.length_nil, Nat.add_zero,
      taken] at last
    rw [List.range_succ, List.flatMap_append, List.flatMap_singleton, List.append_assoc,
      ih (fun row here => Nat.le_of_lt (long row here)), last]

/-- No row is shorter than the shortest. -/
theorem shortest_le {rows : Rows} {row : List Int32} (here : row ∈ rows) :
    rows.shortest ≤ row.length :=
  (exists_shortest (List.ne_nil_of_mem here)).2 row here

/-- The interleaved form goes through the instants up to the end of the shortest row. -/
theorem interleave_eq (rows : Rows) :
    rows.interleave = (List.range rows.shortest).flatMap fun instant => rows.map (·.getD instant 0) := by
  simp [interleave, Function.comp_def]

/-- The interleaved form has a sample of every row for each instant. -/
theorem length_interleave (rows : Rows) : rows.interleave.length = rows.shortest * rows.length := by
  simp [interleave_eq, List.length_flatMap]

/-- Rows come back from their interleaved form as far as the shortest goes. -/
theorem deinterleave_interleave (rows : Rows) :
    deinterleave rows.length rows.interleave = rows.map (·.take rows.shortest) := by
  -- Behind the last instant no sample is left.
  have dealt := dealt_instants (fun row here => rows.shortest_le here) []
  rw [List.append_nil] at dealt
  rw [deinterleave_eq, interleave_eq, dealt]
  rfl

end Rows

end Mixdown
