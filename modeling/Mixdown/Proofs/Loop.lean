import Mathlib.Algebra.Ring.Nat
import Mixdown.Fault

/-! Loops over ranges of numbers, and positions of items and rows that lie behind each other. -/

namespace Mixdown

/-- Two places in rows of one length lie at one position only if they are the same. -/
theorem position_inj {frame buffer other instant moment : Nat} (here : instant < frame)
    (there : moment < frame) (same : buffer * frame + instant = other * frame + moment) :
    buffer = other ∧ instant = moment := by
  -- Dividing a position by the length of a frame gives the buffer and leaves the instant.
  have buffers := congrArg (· / frame) same
  have instants := congrArg (· % frame) same
  simp only [Nat.mul_comm _ frame, Nat.mul_add_div (Nat.lt_of_le_of_lt (Nat.zero_le _) here),
    Nat.div_eq_of_lt here, Nat.div_eq_of_lt there, Nat.mul_add_mod, Nat.mod_eq_of_lt here,
    Nat.mod_eq_of_lt there, Nat.add_zero] at buffers instants
  exact ⟨buffers, instants⟩

/-- What one pass of a loop hands on to the next holds after the last one, and no pass stops. -/
theorem foldlM_range (run : σ → Nat → Except ε σ) (holds : Nat → σ → Prop) (count : Nat) {first : σ}
    (begins : holds 0 first)
    (steps : ∀ index, index < count → ∀ state, holds index state →
      ∃ next, run state index = .ok next ∧ holds (index + 1) next) :
    ∃ last, (List.range count).foldlM run first = .ok last ∧ holds count last := by
  induction count with
  | zero => exact ⟨first, rfl, begins⟩
  | succ count ih =>
    -- The last index is taken off the end of the range, as the loop comes to it last.
    obtain ⟨middle, ran, held⟩ := ih fun index early => steps index (by omega)
    obtain ⟨last, goes, holds⟩ := steps count (by omega) middle held
    refine ⟨last, ?_, holds⟩
    rw [List.range_succ, List.foldlM_append, ran]
    simp only [ok_bind, List.foldlM_cons, List.foldlM_nil, goes, pure_eq_ok]

/-- Computations that all find a value find all values. -/
theorem mapM_eq_ok {items : List α} {compute : α → Except ε β} {value : α → β}
    (each : ∀ item ∈ items, compute item = .ok (value item)) :
    items.mapM compute = .ok (items.map value) := by
  induction items with
  | nil => rfl
  | cons item items ih =>
    rw [List.mapM_cons, each item (by simp), ih fun other here => each other (by simp [here])]
    rfl

/-- Items that fit are stored one behind the other from a start, and all others stay. -/
theorem foldlM_store (target : Array α) (start : Nat) (items : List α)
    (inside : start + items.length ≤ target.size) :
    ∃ written, (items.zipIdx start).foldlM (fun target (item, index) => store target index item)
        target = .ok written ∧ written.size = target.size ∧
      ∀ position, written[position]? =
        if start ≤ position ∧ position < start + items.length then items[position - start]?
        else target[position]? := by
  induction items generalizing target start with
  | nil =>
    -- Nothing is written where no position lies.
    refine ⟨target, rfl, rfl, fun position => ?_⟩
    rw [if_neg]
    rw [List.length_nil]
    omega
  | cons item items ih =>
    rw [List.length_cons] at inside
    obtain ⟨written, run, size, cells⟩ := ih (target.setIfInBounds start item) (start + 1)
      (by rw [Array.size_setIfInBounds]; omega)
    rw [Array.size_setIfInBounds] at size
    refine ⟨written, ?_, size, fun position => ?_⟩
    · rw [List.zipIdx_cons, List.foldlM_cons]
      show (store target start item >>= _) = _
      rw [store_eq_ok (by omega), ok_bind, run]
    · rw [cells position, Array.getElem?_setIfInBounds, List.length_cons]
      -- The first item stays at its position, for the others are written behind it.
      rcases Nat.lt_trichotomy position start with early | rfl | late
      · -- Before the start nothing is written at all.
        rw [if_neg (by omega), if_neg (by omega), if_neg (by omega)]
      · rw [if_neg (by omega), if_pos rfl, if_pos (by omega), if_pos (by omega), Nat.sub_self,
          List.getElem?_cons_zero]
      · by_cases within : position < start + (items.length + 1)
        · -- Among the others the same item is found one position further on.
          obtain ⟨offset, rfl⟩ := Nat.exists_eq_add_of_lt late
          rw [if_pos (by omega), if_pos (by omega),
            show start + offset + 1 - start = offset + 1 by omega, List.getElem?_cons_succ,
            show start + offset + 1 - (start + 1) = offset by omega]
        · rw [if_neg (by omega), if_neg (by omega), if_neg (by omega)]

end Mixdown
