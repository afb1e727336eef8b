import Mathlib.Data.List.Nodup
import Mathlib.Data.List.Perm.Subperm
import Mixdown.Fft
import Mixdown.Proofs.Loop

/-! The passes of a transform over its work buffer, and what the buffer shows after each of them. -/

namespace Mixdown.Fft

variable {R C : Type}

/-- A buffer begins with the items of a sequence. -/
def Shows (work : Array C) (count : Nat) (items : Nat → C) : Prop :=
  ∀ index, index < count → work[index]? = some (items index)

/-- A buffer that begins with a number of items is at least as long. -/
theorem Shows.size_le {work : Array C} {count : Nat} {items : Nat → C}
    (shows : Shows work count items) : count ≤ work.size := by
  cases count with
  | zero => exact Nat.zero_le _
  | succ count =>
    obtain ⟨inside, -⟩ := Array.getElem?_eq_some_iff.mp (shows count (Nat.lt_succ_self count))
    exact inside

section Reversal

/-- A reversed number has no more bits than were reversed. -/
theorem reverseBits_lt (bits index : Nat) : reverseBits bits index < 2 ^ bits := by
  induction bits generalizing index with
  | zero => exact Nat.one_pos
  | succ bits ih =>
    have lower := ih (index / 2)
    -- The lowest bit of the index becomes the highest one.
    rcases Nat.mod_two_eq_zero_or_one index with even | odd
    · rw [reverseBits, even, Nat.zero_shiftLeft, Nat.pow_succ]
      omega
    · rw [reverseBits, odd, Nat.one_shiftLeft, Nat.pow_succ]
      omega

/-- An even number has its half in front of a zero. -/
theorem reverseBits_double (bits index : Nat) :
    reverseBits (bits + 1) (2 * index) = reverseBits bits index := by
  rw [reverseBits, Nat.mul_mod_right, Nat.zero_shiftLeft, Nat.zero_add,
    Nat.mul_div_cancel_left index (by omega)]

/-- An odd number has its half in front of a one. -/
theorem reverseBits_double_succ (bits index : Nat) :
    reverseBits (bits + 1) (2 * index + 1) = 2 ^ bits + reverseBits bits index := by
  have low : (2 * index + 1) % 2 = 1 := by omega
  have high : (2 * index + 1) / 2 = index := by omega
  rw [reverseBits, low, high, Nat.one_shiftLeft]

/-- The reversal of a number can be read from its highest bit down. -/
theorem reverseBits_high (bits : Nat) {index top : Nat} (below : index < 2 ^ bits) (bit : top < 2) :
    reverseBits (bits + 1) (2 ^ bits * top + index) = 2 * reverseBits bits index + top := by
  induction bits generalizing index with
  | zero =>
    obtain rfl : index = 0 := by simpa using below
    obtain rfl | rfl : top = 0 ∨ top = 1 := by omega
    · rfl
    · rfl
  | succ bits ih =>
    rw [Nat.pow_succ] at below
    have low : (2 ^ (bits + 1) * top + index) % 2 = index % 2 := by
      rw [Nat.pow_succ', Nat.mul_assoc, Nat.mul_add_mod]
    have high : (2 ^ (bits + 1) * top + index) / 2 = 2 ^ bits * top + index / 2 := by
      rw [Nat.pow_succ', Nat.mul_assoc, Nat.mul_add_div (by omega)]
    -- The lowest bit goes to the top on both sides, and the others are reversed by induction.
    rw [reverseBits, low, high, ih (by omega), reverseBits, Nat.shiftLeft_succ]
    omega

/-- Reversing the bits of a number twice gives the number back. -/
theorem reverseBits_reverseBits {bits index : Nat} (below : index < 2 ^ bits) :
    reverseBits bits (reverseBits bits index) = index := by
  induction bits generalizing index with
  | zero =>
    obtain rfl : index = 0 := by simpa using below
    rfl
  | succ bits ih =>
    rw [Nat.pow_succ] at below
    have inner : reverseBits (bits + 1) index =
        2 ^ bits * (index % 2) + reverseBits bits (index / 2) := by
      rw [reverseBits, Nat.shiftLeft_eq, Nat.mul_comm]
    -- The inner reversal is read from its lowest bit, and the outer one from its highest.
    rw [inner, reverseBits_high bits (reverseBits_lt bits _) (Nat.mod_lt index (by omega)),
      ih (by omega)]
    omega

/-- Reversing the bits of all indices of a transform reaches each of them once. -/
theorem reverseBits_perm (bits : Nat) :
    ((List.range (2 ^ bits)).map (reverseBits bits)).Perm (List.range (2 ^ bits)) := by
  -- The second reversal undoes the first, so no index is reached twice.
  have distinct : ((List.range (2 ^ bits)).map (reverseBits bits)).Nodup := by
    refine List.Nodup.map_on (fun index here other there same => ?_) List.nodup_range
    rw [← reverseBits_reverseBits (List.mem_range.mp here), same,
      reverseBits_reverseBits (List.mem_range.mp there)]
  have inside : (List.range (2 ^ bits)).map (reverseBits bits) ⊆ List.range (2 ^ bits) := by
    intro index here
    obtain ⟨other, -, rfl⟩ := List.mem_map.mp here
    exact List.mem_range.mpr (reverseBits_lt bits other)
  exact (distinct.subperm inside).perm_of_length_le (by simp)

end Reversal

/-- Inside a part an element is fetched as from the buffer. -/
theorem Part.fetch_eq {part : Part} {index : Nat} (inside : index < part.length) (work : Array C) :
    part.fetch work index = Mixdown.fetch work (part.start + index) := if_pos inside

/-- Inside a part an element is stored as in the buffer. -/
theorem Part.store_eq {part : Part} {index : Nat} (inside : index < part.length) (work : Array C)
    (item : C) : part.store work index item = Mixdown.store work (part.start + index) item :=
  if_pos inside

/-- An element is carried from one part to another as within the buffer, inside of both. -/
theorem Part.carry_eq (out into : Part) {source target : Nat} (found : source < out.length)
    (room : target < into.length) (change : C → C) (work : Array C) :
    (do into.store work target (change (← out.fetch work source))) = (do
      Mixdown.store work (into.start + target)
        (change (← Mixdown.fetch work (out.start + source)))) := by
  simp only [fetch_eq found, store_eq room]

/-- The data begins where the buffer does. -/
theorem data_start (size index : Nat) : (data size).start + index = index := Nat.zero_add index

/-- A loop that stores one item for each index fills its targets and leaves all else. -/
theorem store_each (run : Array C → Nat → Except Fault (Array C)) (source target : Nat → Nat)
    (change : C → C) (count : Nat) {work : Array C} {items : Nat → C}
    (does : ∀ index, index < count → ∀ state, run state index = do
      store state (target index) (change (← fetch state (source index))))
    (inside : ∀ index, index < count → target index < work.size)
    (held : ∀ index, index < count → work[source index]? = some (items index))
    (once : ∀ early late, early < late → late < count → target early ≠ target late)
    (unread : ∀ early late, early < late → late < count → target early ≠ source late) :
    ∃ after, (List.range count).foldlM run work = .ok after ∧ after.size = work.size ∧
      (∀ index, index < count → after[target index]? = some (change (items index))) ∧
      ∀ position, (∀ index, index < count → target index ≠ position) →
        after[position]? = work[position]? := by
  -- At each index the targets of all earlier ones are filled, and no other position has changed.
  refine foldlM_range run
    (fun index state => state.size = work.size ∧
      (∀ early, early < index → state[target early]? = some (change (items early))) ∧
      ∀ position, (∀ early, early < index → target early ≠ position) →
        state[position]? = work[position]?) count
    ⟨rfl, fun early none => by omega, fun _ _ => rfl⟩ ?_
  rintro index within state ⟨size, filled, kept⟩
  -- The source of this index is not the target of an earlier one, so it is still as before.
  have found : state[source index]? = some (items index) := by
    rw [kept _ fun early before => unread early index before within, held index within]
  have room : target index < state.size := by
    rw [size]
    exact inside index within
  refine ⟨_, by rw [does index within, fetch_eq_ok found, ok_bind, store_eq_ok room], ?_, ?_, ?_⟩
  · rw [Array.size_setIfInBounds, size]
  · intro early before
    rcases Nat.lt_or_eq_of_le (Nat.le_of_lt_succ before) with earlier | rfl
    · rw [Array.getElem?_setIfInBounds_ne (once early index earlier within).symm,
        filled early earlier]
    · rw [Array.getElem?_setIfInBounds_self_of_lt room]
  · intro position apart
    rw [Array.getElem?_setIfInBounds_ne (apart index (Nat.lt_succ_self index)),
      kept position fun early before => apart early (by omega)]

section Shuffle

variable {bits : Nat} {work : Array C} {items : Nat → C}

/-- Scattering and gathering leaves the items in the order of their reversed indices. -/
theorem shuffle_eq (room : 2 * 2 ^ bits ≤ work.size) (shows : Shows work (2 ^ bits) items) :
    ∃ after, (scatter bits (2 ^ bits) work >>= gather (2 ^ bits)) = .ok after ∧
      after.size = work.size ∧
      Shows after (2 ^ bits) fun index => items (reverseBits bits index) := by
  have reversed := reverseBits_lt bits
  -- Neither loop leaves its parts, since a reversed index is one of the first as well.
  obtain ⟨scattered, scatters, size, copied, -⟩ := store_each
    (fun work i => do
      (scratch (2 ^ bits)).store work (reverseBits bits i) (← (data (2 ^ bits)).fetch work i))
    id (fun index => 2 ^ bits + reverseBits bits index) id (2 ^ bits)
    (fun index within state => by
      have carried := Part.carry_eq (data (2 ^ bits)) (scratch (2 ^ bits)) within (reversed index)
        id state
      rwa [data_start] at carried)
    (fun index _ => by have := reversed index; omega) shows
    (fun early late before within same => by
      -- Two indices with one reversal would be reversed back to one index.
      have equal := congrArg (reverseBits bits) (Nat.add_left_cancel same)
      rw [reverseBits_reverseBits (by omega), reverseBits_reverseBits within] at equal
      omega)
    (fun early late before within => by simp only [id_eq]; omega)
  -- What lies at an index of the scratch part was scattered from its reversal.
  have reached : ∀ index, index < 2 ^ bits →
      scattered[2 ^ bits + index]? = some (items (reverseBits bits index)) := by
    intro index within
    have found := copied (reverseBits bits index) (reversed index)
    rwa [reverseBits_reverseBits within] at found
  obtain ⟨after, gathers, total, filled, -⟩ := store_each
    (fun work i => do
      (data (2 ^ bits)).store work i (← (scratch (2 ^ bits)).fetch work i))
    (fun index => 2 ^ bits + index) id id (2 ^ bits)
    (fun index within state => by
      have carried := Part.carry_eq (scratch (2 ^ bits)) (data (2 ^ bits)) within within id state
      rwa [data_start] at carried)
    (fun index within => by simp only [id_eq]; omega) reached
    (fun early late before within => by simp only [id_eq]; omega)
    (fun early late before within => by simp only [id_eq]; omega)
  refine ⟨after, ?_, by rw [total, size], filled⟩
  show (scatter bits (2 ^ bits) work >>= _) = _
  rw [show scatter bits (2 ^ bits) work = .ok scattered from scatters, ok_bind]
  exact gathers

/-- All data is divided by the size. -/
theorem normalize_eq (arithmetic : Arithmetic R C) {size : Nat} (shows : Shows work size items) :
    ∃ after, normalize arithmetic size work = .ok after ∧ after.size = work.size ∧
      Shows after size fun index => arithmetic.shrink size (items index) := by
  have inside := shows.size_le
  -- Each index is read and written once, and no other one is looked at.
  obtain ⟨after, ran, total, filled, -⟩ := store_each
    (fun work i => do
      (data size).store work i (arithmetic.shrink size (← (data size).fetch work i)))
    id id (arithmetic.shrink size) size
    (fun index within state => by
      have carried := Part.carry_eq (data size) (data size) within within (arithmetic.shrink size)
        state
      rwa [data_start] at carried)
    (fun index within => by simp only [id_eq]; omega) shows
    (fun early late before within => by simp only [id_eq]; omega)
    (fun early late before within => by simp only [id_eq]; omega)
  exact ⟨after, ran, total, filled⟩

end Shuffle

section Stages

variable (arithmetic : Arithmetic R C) (inverse : Bool)

/-- A buffer begins with blocks of one length. -/
def Blocks (work : Array C) (count length : Nat) (value : Nat → Nat → C) : Prop :=
  ∀ block, block < count → ∀ step, step < length →
    work[block * length + step]? = some (value block step)

/-- The element of an odd block that is turned before it meets the one of the block before. -/
def rotated (half : Nat) (value : Nat → Nat → C) (block step : Nat) : C :=
  arithmetic.mul (arithmetic.twiddle inverse step (2 * half)) (value (2 * block + 1) step)

/-- Two blocks in a row combined into one of twice their length. -/
def merged (half : Nat) (value : Nat → Nat → C) (block step : Nat) : C :=
  if step < half then
    arithmetic.add (value (2 * block) step) (rotated arithmetic inverse half value block step)
  else
    arithmetic.sub (value (2 * block) (step - half))
      (rotated arithmetic inverse half value block (step - half))

/-- A stage has come to a step of a block: all pairs before it are combined, and no other. -/
structure Merging (work : Array C) (count half : Nat) (value : Nat → Nat → C)
    (current reached : Nat) : Prop where
  low : ∀ block, block < count → ∀ step, step < half → work[2 * block * half + step]? = some
    (if block < current ∨ block = current ∧ step < reached then
      merged arithmetic inverse half value block step else value (2 * block) step)
  high : ∀ block, block < count → ∀ step, step < half → work[(2 * block + 1) * half + step]? = some
    (if block < current ∨ block = current ∧ step < reached then
      merged arithmetic inverse half value block (half + step) else value (2 * block + 1) step)

variable {arithmetic inverse} {work : Array C} {count half current reached : Nat}
  {value : Nat → Nat → C}

/-- The lower half of a merged block holds sums. -/
theorem merged_low {block step : Nat} (early : step < half) :
    merged arithmetic inverse half value block step =
      arithmetic.add (value (2 * block) step)
        (rotated arithmetic inverse half value block step) := by
  rw [merged, if_pos early]

/-- The upper half of a merged block holds differences. -/
theorem merged_high (block step : Nat) :
    merged arithmetic inverse half value block (half + step) =
      arithmetic.sub (value (2 * block) step)
        (rotated arithmetic inverse half value block step) := by
  rw [merged, if_neg (by omega), Nat.add_sub_cancel_left]

/-- A butterfly replaces two elements that lie half a block apart by their sum and difference. -/
theorem butterfly_eq (arithmetic : Arithmetic R C) (inverse : Bool) {size start step : Nat}
    {kept turned : C} (within : start + step + half < size)
    (low : work[start + step]? = some kept) (high : work[start + step + half]? = some turned) :
    butterfly arithmetic inverse size (2 * half) start step work =
      .ok ((work.setIfInBounds (start + step) (arithmetic.add kept
          (arithmetic.mul (arithmetic.twiddle inverse step (2 * half)) turned))).setIfInBounds
        (start + step + half) (arithmetic.sub kept
          (arithmetic.mul (arithmetic.twiddle inverse step (2 * half)) turned))) := by
  have middle : 2 * half / 2 = half := Nat.mul_div_cancel_left half (by omega)
  obtain ⟨inside, -⟩ := Array.getElem?_eq_some_iff.mp low
  obtain ⟨room, -⟩ := Array.getElem?_eq_some_iff.mp high
  -- Both indices are those of data, the upper one and with it the lower one.
  have upper : start + step + half < (data size).length := within
  have lower : start + step < (data size).length := by omega
  simp only [butterfly, middle, Part.fetch_eq upper, Part.fetch_eq lower, Part.store_eq upper,
    Part.store_eq lower, data_start, fetch_eq_ok low, fetch_eq_ok high, ok_bind,
    store_eq_ok inside]
  rw [store_eq_ok (by rw [Array.size_setIfInBounds]; exact room)]

/-- Storing the results of a pair takes the stage to the next step. -/
theorem Merging.store
    (merging : Merging arithmetic inverse work count half value current reached)
    (within : current < count) (early : reached < half) :
    Merging arithmetic inverse
      ((work.setIfInBounds (2 * current * half + reached)
        (merged arithmetic inverse half value current reached)).setIfInBounds
        ((2 * current + 1) * half + reached)
        (merged arithmetic inverse half value current (half + reached)))
      count half value current (reached + 1) := by
  obtain ⟨inside, -⟩ := Array.getElem?_eq_some_iff.mp (merging.low current within reached early)
  obtain ⟨room, -⟩ := Array.getElem?_eq_some_iff.mp (merging.high current within reached early)
  -- Only the pair itself is behind the stage now and was not before.
  have before : ∀ block step, ¬(block = current ∧ step = reached) →
      ((block < current ∨ block = current ∧ step < reached + 1) ↔
        (block < current ∨ block = current ∧ step < reached)) := by
    intro block step other
    omega
  constructor
  · intro block among step less
    -- An upper element is never a lower one, since its block has an odd number.
    rw [Array.getElem?_setIfInBounds_ne fun same => by
      have := (position_inj early less same).1
      omega]
    by_cases here : block = current ∧ step = reached
    · obtain ⟨rfl, rfl⟩ := here
      rw [Array.getElem?_setIfInBounds_self_of_lt inside, if_pos (by omega)]
    · rw [Array.getElem?_setIfInBounds_ne fun same => here (by
        have := position_inj early less same
        omega), merging.low block among step less]
      simp only [before block step here]
  · intro block among step less
    by_cases here : block = current ∧ step = reached
    · obtain ⟨rfl, rfl⟩ := here
      rw [Array.getElem?_setIfInBounds_self_of_lt (by rw [Array.size_setIfInBounds]; exact room),
        if_pos (by omega)]
    · rw [Array.getElem?_setIfInBounds_ne fun same => here (by
        have := position_inj early less same
        omega), Array.getElem?_setIfInBounds_ne fun same => by
          have := (position_inj early less same).1
          omega, merging.high block among step less]
      simp only [before block step here]

/-- A butterfly combines the pair that the stage has come to. -/
theorem Merging.butterfly
    (merging : Merging arithmetic inverse work count half value current reached)
    (within : current < count) (early : reached < half) :
    ∃ after, butterfly arithmetic inverse (count * (2 * half)) (2 * half) (current * (2 * half))
        reached work = .ok after ∧ after.size = work.size ∧
      Merging arithmetic inverse after count half value current (reached + 1) := by
  -- In blocks of half the length, the two elements are at one step of two blocks in a row.
  have lower : current * (2 * half) + reached = 2 * current * half + reached := by
    rw [Nat.mul_left_comm, ← Nat.mul_assoc]
  have upper : 2 * current * half + reached + half = (2 * current + 1) * half + reached := by
    rw [Nat.add_mul, Nat.one_mul]
    omega
  have kept := merging.low current within reached early
  have turned := merging.high current within reached early
  rw [if_neg (by omega)] at kept turned
  -- The block ends within the data, as all blocks do.
  have inside : current * (2 * half) + reached + half < count * (2 * half) := by
    have := Nat.mul_le_mul_right (2 * half) within
    rw [Nat.succ_mul] at this
    omega
  have run := butterfly_eq arithmetic inverse inside (by rw [lower]; exact kept)
    (by rw [lower, upper]; exact turned)
  rw [lower, upper, ← rotated, ← merged_low early, ← merged_high] at run
  exact ⟨_, run, by simp only [Array.size_setIfInBounds], merging.store within early⟩

/-- Before the first butterfly no pair is combined. -/
theorem Blocks.merging (blocks : Blocks work (2 * count) half value) :
    Merging arithmetic inverse work count half value 0 0 where
  low block among step before := by
    rw [if_neg (by omega), blocks (2 * block) (by omega) step before]
  high block among step before := by
    rw [if_neg (by omega), blocks (2 * block + 1) (by omega) step before]

/-- The butterflies of one block go from step to step, and leave the stage at the next block. -/
theorem Merging.block (merging : Merging arithmetic inverse work count half value current 0)
    (within : current < count) :
    ∃ after, (List.range half).foldlM (fun work step =>
        Fft.butterfly arithmetic inverse (count * (2 * half)) (2 * half) (current * (2 * half)) step
          work) work = .ok after ∧ after.size = work.size ∧
      Merging arithmetic inverse after count half value (current + 1) 0 := by
  obtain ⟨after, ran, size, merging⟩ := foldlM_range (fun work step =>
      Fft.butterfly arithmetic inverse (count * (2 * half)) (2 * half) (current * (2 * half)) step
        work)
    (fun reached state => state.size = work.size ∧
      Merging arithmetic inverse state count half value current reached) half ⟨rfl, merging⟩
    (fun reached early state ⟨size, merging⟩ => by
      obtain ⟨next, ran, same, merging⟩ := merging.butterfly within early
      exact ⟨next, ran, same.trans size, merging⟩)
  -- With its last step the block is behind the stage.
  have passed : ∀ block step, step < half → ((block < current ∨ block = current ∧ step < half) ↔
      (block < current + 1 ∨ block = current + 1 ∧ step < 0)) := by
    intro block step before
    omega
  refine ⟨after, ran, size, fun block among step before => ?_, fun block among step before => ?_⟩
  · rw [merging.low block among step before]
    simp only [passed block step before]
  · rw [merging.high block among step before]
    simp only [passed block step before]

/-- When all pairs are combined, the buffer consists of the merged blocks. -/
theorem Merging.blocks (merging : Merging arithmetic inverse work count half value count 0) :
    Blocks work count (2 * half) (merged arithmetic inverse half value) := by
  intro block among step before
  rcases Nat.lt_or_ge step half with early | late
  · have found := merging.low block among step early
    rw [if_pos (by omega)] at found
    rw [← found, Nat.mul_left_comm, ← Nat.mul_assoc]
  · -- The upper half of a merged block was the odd one of the two.
    obtain ⟨rest, rfl⟩ := Nat.exists_eq_add_of_le late
    have found := merging.high block among rest (by omega)
    rw [if_pos (by omega)] at found
    rw [← found, Nat.mul_left_comm, ← Nat.mul_assoc, Nat.add_mul, Nat.one_mul, Nat.add_assoc]

/-- One stage merges all blocks of a buffer in pairs. -/
theorem stage_eq (positive : 0 < half) (blocks : Blocks work (2 * count) half value) :
    ∃ after, stage arithmetic inverse (count * (2 * half)) (2 * half) work = .ok after ∧
      after.size = work.size ∧
      Blocks after count (2 * half) (merged arithmetic inverse half value) := by
  have blockCount : count * (2 * half) / (2 * half) = count :=
    Nat.mul_div_cancel count (by omega)
  have stepCount : 2 * half / 2 = half := Nat.mul_div_cancel_left half (by omega)
  rw [stage, blockCount, stepCount]
  -- Blocks are merged from the front, and those behind are left for later.
  obtain ⟨after, ran, size, merging⟩ := foldlM_range (fun work k =>
      (List.range half).foldlM (fun work step =>
        butterfly arithmetic inverse (count * (2 * half)) (2 * half) (k * (2 * half)) step work)
          work)
    (fun current state => state.size = work.size ∧
      Merging arithmetic inverse state count half value current 0) count ⟨rfl, blocks.merging⟩
    (fun current within state ⟨size, merging⟩ => by
      obtain ⟨next, ran, same, merging⟩ := merging.block within
      exact ⟨next, ran, same.trans size, merging⟩)
  exact ⟨after, ran, size, merging.blocks⟩

variable (arithmetic inverse)

/-- The blocks of a work buffer after a number of stages. -/
def passed (bits : Nat) (items : Nat → C) : (level : Nat) → (block step : Nat) → C
  | 0 => fun block _ => items (reverseBits bits block)
  | level + 1 => merged arithmetic inverse (2 ^ level) (passed bits items level)

/-- What a transform of a sequence leaves at an index. -/
def transformed (bits : Nat) (items : Nat → C) (index : Nat) : C :=
  let value := passed arithmetic inverse bits items bits 0 index
  if inverse then arithmetic.shrink (2 ^ bits) value else value

/-- The stages of a transform merge blocks of single items into one that spans them all. -/
theorem stages_eq {bits : Nat} {items : Nat → C}
    (shows : Shows work (2 ^ bits) fun index => items (reverseBits bits index)) :
    ∃ after, (List.range bits).foldlM (fun work level =>
        stage arithmetic inverse (2 ^ bits) (2 <<< level) work) work = .ok after ∧
      after.size = work.size ∧
      Shows after (2 ^ bits) (passed arithmetic inverse bits items bits 0) := by
  obtain ⟨after, ran, size, blocks⟩ := foldlM_range
    (fun work level => stage arithmetic inverse (2 ^ bits) (2 <<< level) work)
    (fun level state => state.size = work.size ∧
      Blocks state (2 ^ (bits - level)) (2 ^ level) (passed arithmetic inverse bits items level))
    bits ⟨rfl, fun block among step before => by
      obtain rfl : step = 0 := by simpa using before
      rw [Nat.pow_zero, Nat.mul_one, Nat.add_zero, passed]
      exact shows block among⟩
    (fun level within state ⟨size, blocks⟩ => by
      -- The blocks become half as many and twice as long.
      have halves : 2 ^ (bits - level) = 2 * 2 ^ (bits - (level + 1)) := by
        rw [← Nat.pow_succ']
        congr 1
        omega
      have total : 2 ^ bits = 2 ^ (bits - (level + 1)) * (2 * 2 ^ level) := by
        rw [← Nat.pow_succ', ← Nat.pow_add]
        congr 1
        omega
      rw [halves] at blocks
      obtain ⟨next, ran, same, blocks⟩ := stage_eq (Nat.two_pow_pos level) blocks
      refine ⟨next, ?_, same.trans size, ?_⟩
      · rw [total, Nat.shiftLeft_eq]
        exact ran
      · rw [Nat.pow_succ']
        exact blocks)
  refine ⟨after, ran, size, fun index within => ?_⟩
  -- Only one block is left, and it begins where the buffer does.
  have found := blocks 0 (by rw [Nat.sub_self]; exact Nat.one_pos) index within
  rwa [Nat.zero_mul, Nat.zero_add] at found

end Stages

/-- A transform runs without a fault and leaves the transformed sequence. -/
theorem transform_eq (arithmetic : Arithmetic R C) (inverse : Bool) {bits : Nat} {work : Array C}
    {items : Nat → C} (room : 2 * 2 ^ bits ≤ work.size) (shows : Shows work (2 ^ bits) items) :
    ∃ after, transform arithmetic inverse (2 ^ bits) work = .ok after ∧ after.size = work.size ∧
      Shows after (2 ^ bits) (transformed arithmetic inverse bits items) := by
  obtain ⟨shuffled, shuffles, size, order⟩ := shuffle_eq room shows
  obtain ⟨gone, scatters, gathers⟩ := bind_eq_ok.mp shuffles
  obtain ⟨merged, merges, total, passed⟩ := stages_eq arithmetic inverse order
  simp only [transform, Nat.log2_two_pow, scatters, gathers, merges, ok_bind, pure_eq_ok]
  cases inverse with
  | false => exact ⟨merged, rfl, total.trans size, passed⟩
  | true =>
    -- Only the transform back divides by the size.
    obtain ⟨after, ran, same, shrunk⟩ := normalize_eq arithmetic passed
    exact ⟨after, ran, same.trans (total.trans size), shrunk⟩

end Mixdown.Fft
