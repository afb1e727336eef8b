import Mathlib.Data.List.GetD
import Mixdown.Loudness
import Mixdown.Proofs.Stream

/-! The whole history of a programme, and what the rings and filters of a meter keep of it. -/

namespace Mixdown.Loudness

section Windows

/-- The sum of values, added up from the oldest. -/
def sum (values : List Float) : Float := values.foldl (· + ·) 0

/-- The mean of values; zero for no values. -/
def mean (values : List Float) : Float :=
  if values.length = 0 then 0 else sum values / values.length.toUInt64.toFloat

/-- The latest of the values of a history. -/
def latest (count : Nat) (values : List Float) : List Float := values.drop (values.length - count)

/-- A ring has the latest values of a history, as many as it is long. -/
structure Ring.Keeps (ring : Ring) (length : Nat) (values : List Float) : Prop where
  size : ring.values.size = length
  cells : ∀ index, index < values.length → values.length ≤ index + length →
    ring.values[index % length]? = values[index]?

variable {ring : Ring} {length : Nat} {values : List Float}

/-- A new ring keeps the empty history. -/
theorem Ring.create_keeps (positive : 0 < length) : (create length).Keeps length [] where
  size := by
    rw [create, Array.size_replicate]
    omega
  cells index early := by
    rw [List.length_nil] at early
    omega

/-- A ring that is cleared keeps the empty history again. -/
theorem Ring.Keeps.clear (keeps : ring.Keeps length values) : ring.clear.Keeps length [] where
  size := by rw [Ring.clear, Array.size_replicate, keeps.size]
  cells index early := by
    rw [List.length_nil] at early
    omega

/-- A new ring is as a cleared one that has kept as many values. -/
theorem Ring.Keeps.clear_eq (keeps : ring.Keeps length values) (filled : 0 < length) :
    (create length).clear = ring.clear := by
  -- Clearing depends on the length of a ring alone.
  simp only [Ring.clear, create, Array.size_replicate, keeps.size]
  rw [Nat.max_eq_left filled]

/-- A value that is pushed takes the place of the oldest one in a ring. -/
theorem Ring.Keeps.push (keeps : ring.Keeps length values) (positive : 0 < length)
    (value : Float) : (ring.push values.length value).Keeps length (values ++ [value]) where
  size := by rw [Ring.push, Array.size_setIfInBounds, keeps.size]
  cells index early recent := by
    rw [List.length_append, List.length_singleton] at early recent
    have inside : values.length % length < ring.values.size := by
      rw [keeps.size]
      exact Nat.mod_lt _ positive
    rw [Ring.push, keeps.size]
    rcases Nat.lt_or_eq_of_le (Nat.le_of_lt_succ early) with before | rfl
    · -- A value of the last round lies elsewhere, for less than a round has passed since.
      have apart : values.length % length ≠ index % length := by
        intro same
        have divides := Nat.dvd_of_mod_eq_zero (Nat.sub_mod_eq_zero_of_mod_eq same)
        have round := Nat.le_of_dvd (by omega) divides
        omega
      rw [Array.getElem?_setIfInBounds_ne apart, keeps.cells index before (by omega),
        List.getElem?_append_left before]
    · -- The latest value has just been put in its place.
      rw [Array.getElem?_setIfInBounds_self_of_lt inside, List.getElem?_concat_length]

/-- A ring adds up the values of a history from a start that it still keeps. -/
theorem Ring.Keeps.sumFrom (keeps : ring.Keeps length values) {count start : Nat}
    (ends : start + count = values.length) (kept : count ≤ length) (first : Float) :
    ring.sumFrom count start first = (values.drop start).foldl (· + ·) first := by
  induction count generalizing start first with
  | zero =>
    rw [Nat.add_zero] at ends
    rw [ends, List.drop_length]
    rfl
  | succ count ih =>
    -- The oldest of the values to add is still kept, and so are those behind it.
    have early : start < values.length := by omega
    have found : ring.values.getD (start % ring.values.size) 0 = values[start] := by
      rw [Array.getD_eq_getD_getElem?, keeps.size, keeps.cells start early (by omega),
        List.getElem?_eq_getElem early, Option.getD_some]
    rw [Ring.sumFrom, found, ih (by omega) (by omega), List.drop_eq_getElem_cons early,
      List.foldl_cons]

/-- The mean that a ring finds for a window is that of the latest values of the history. -/
theorem Ring.Keeps.recentMean (keeps : ring.Keeps length values) (window : Nat) :
    ring.recentMean values.length window =
      mean (latest (min (min window values.length) length) values) := by
  -- The window is cut to what has been seen and to what the ring has room for.
  have count : (latest (min (min window values.length) length) values).length =
      min (min window values.length) length := by
    rw [latest, List.length_drop]
    omega
  rw [Ring.recentMean, keeps.size, mean, count]
  by_cases none : min (min window values.length) length = 0
  · rw [if_pos none, if_pos none]
  · rw [if_neg none, if_neg none, keeps.sumFrom (by omega) (by omega)]
    rfl

end Windows

section Streams

/-- The samples of one channel in a history of frames. -/
def track (frames : List (List Single)) (channel : Nat) : List Float :=
  frames.map fun frame => (frame.getD channel 0).toFloat.toFloat

variable (rate : Nat) (frames : List (List Single)) (frame : List Single) (channel : Nat)

/-- The shelf at a rate in frames per second. -/
def shelf : Weighting := .highShelf rate.toUInt64.toFloat

/-- The filter against low frequencies at a rate in frames per second. -/
def pass : Weighting := .highPass rate.toUInt64.toFloat

/-- The samples of one channel after the shelf, which starts with no memory. -/
def shelved : Memory × List Float := feed (shelf rate).step ⟨0, 0⟩ (track frames channel)

/-- The samples of one channel after both filters, which start with no memory. -/
def weighted : Memory × List Float := feed (pass rate).step ⟨0, 0⟩ (shelved rate frames channel).2

/-- What the filters of one channel remember of a history. -/
def memory : Channel := ⟨(shelved rate frames channel).1, (weighted rate frames channel).1⟩

/-- One more frame puts one more sample through both filters. -/
theorem weighted_concat :
    memory rate (frames ++ [frame]) channel =
        (Meter.weigh (shelf rate) (pass rate) (memory rate frames channel)
          (frame.getD channel 0)).1 ∧
      (weighted rate (frames ++ [frame]) channel).2 = (weighted rate frames channel).2 ++
        [(Meter.weigh (shelf rate) (pass rate) (memory rate frames channel)
          (frame.getD channel 0)).2] := by
  have tracks : track (frames ++ [frame]) channel =
      track frames channel ++ [(frame.getD channel 0).toFloat.toFloat] := by
    rw [track, List.map_append]
    rfl
  -- The shelf is fed one more sample, and the other filter what comes out of the shelf.
  simp only [memory, weighted, shelved, tracks, feed_append]
  exact ⟨rfl, rfl⟩

/-- Every frame of a history gives one weighted sample. -/
theorem weighted_length : (weighted rate frames channel).2.length = frames.length := by
  rw [weighted, feed_length, shelved, feed_length, track, List.length_map]

/-- The squares of the channels that count, added in order. -/
def squares (channels : List Nat) (level : Nat → Float) (first : Float) : Float :=
  channels.foldl (fun sum channel =>
    if channel = effectsChannel then sum else sum + level channel * level channel) first

/-- The mean square of a frame over all its channels. -/
def meanSquare (channels : Nat) (level : Nat → Float) : Float :=
  squares (List.range channels) level 0 / channels.toUInt64.toFloat

/-- The mean squares of all frames of a history, each channel weighted from its beginning. -/
def meanSquares (channels : Nat) : List Float :=
  (List.range frames.length).map fun instant =>
    meanSquare channels fun channel => (weighted rate frames channel).2.getD instant 0

/-- There are as many mean squares as frames. -/
theorem meanSquares_length (channels : Nat) :
    (meanSquares rate frames channels).length = frames.length := by
  rw [meanSquares, List.length_map, List.length_range]

/-- One more frame adds its mean square to those before it, which do not change. -/
theorem meanSquares_concat (channels : Nat) :
    meanSquares rate (frames ++ [frame]) channels = meanSquares rate frames channels ++
      [meanSquare channels fun channel => (Meter.weigh (shelf rate) (pass rate)
        (memory rate frames channel) (frame.getD channel 0)).2] := by
  have outputs := fun channel => (weighted_concat rate frames frame channel).2
  simp only [meanSquares, List.length_append, List.length_singleton, List.range_succ,
    List.map_append, List.map_singleton, outputs]
  congr 1
  · -- What has come out of the filters does not depend on what goes in later.
    refine List.map_congr_left fun instant early => ?_
    have early := List.mem_range.mp early
    congr 1
    funext channel
    rw [List.getD_append _ _ _ _ (by rw [weighted_length]; exact early)]
  · -- The new frame's samples come out last.
    congr 2
    funext channel
    rw [List.getD_append_right _ _ _ _ (Nat.le_of_eq (weighted_length rate frames channel)),
      weighted_length, Nat.sub_self]
    rfl

end Streams

/-- The channels that a frame has samples for are weighted, and the others are left alone. -/
theorem weighFrame_eq (shelf highPass : Weighting) (memories : Nat → Channel)
    (samples : Nat → Single) (rest : List Channel) (index count : Nat) (sum : Float) :
    Meter.weighFrame shelf highPass index ((List.range' index count).map memories ++ rest)
        ((List.range' index count).map samples) sum =
      ((List.range' index count).map (fun channel =>
          (Meter.weigh shelf highPass (memories channel) (samples channel)).1) ++ rest,
        squares (List.range' index count) (fun channel =>
          (Meter.weigh shelf highPass (memories channel) (samples channel)).2) sum) := by
  induction count generalizing index sum with
  | zero =>
    -- Without samples the list of channels comes back as it is.
    cases rest with
    | nil => rfl
    | cons channel rest => rfl
  | succ count ih =>
    -- The first channel is weighed, and the others go on from its sum.
    simp only [List.range'_succ, List.map_cons, List.cons_append, Meter.weighFrame, squares,
      List.foldl_cons, ih]

end Mixdown.Loudness
