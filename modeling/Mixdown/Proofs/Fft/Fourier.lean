import Mathlib.RingTheory.RootsOfUnity.Complex
import Mixdown.Proofs.Fft.Plan

/-! Transforms over exact arithmetic compute the discrete Fourier transform. -/

namespace Mixdown.Fft

/-- A sum over twice as many indices falls into one over the even and one over the odd ones. -/
theorem sum_range_double {M : Type} [AddCommMonoid M] (term : Nat → M) (count : Nat) :
    ∑ t ∈ Finset.range (2 * count), term t =
      ∑ t ∈ Finset.range count, term (2 * t) + ∑ t ∈ Finset.range count, term (2 * t + 1) := by
  induction count with
  | zero => simp
  | succ count ih =>
    rw [Nat.mul_succ, Finset.sum_range_succ, Finset.sum_range_succ, ih,
      Finset.sum_range_succ _ count, Finset.sum_range_succ _ count, add_assoc, add_add_add_comm]

variable {R K : Type} [Field K]

/-- The sum of all items, each turned by a power of a root that grows with both indices. -/
def fourier (root : K) (size : Nat) (items : Nat → K) (index : Nat) : K :=
  ∑ t ∈ Finset.range size, items t * root ^ (index * t)

/-- The sum does not change when its index goes on by as many steps as close the circle. -/
theorem fourier_add_size {root : K} {size : Nat} (closes : root ^ size = 1) (items : Nat → K)
    (index : Nat) : fourier root size items (size + index) = fourier root size items index := by
  refine Finset.sum_congr rfl fun t _ => ?_
  rw [Nat.add_mul, pow_add, pow_mul root size, closes, one_pow, one_mul]

/-- The sum over twice as many items joins those over the even and the odd ones. -/
theorem fourier_double (root : K) (half : Nat) (items : Nat → K) (index : Nat) :
    fourier root (2 * half) items index =
      fourier (root ^ 2) half (fun t => items (2 * t)) index +
        root ^ index * fourier (root ^ 2) half (fun t => items (2 * t + 1)) index := by
  rw [fourier, sum_range_double, fourier, fourier, Finset.mul_sum]
  congr 1
  · refine Finset.sum_congr rfl fun t _ => ?_
    rw [← pow_mul, Nat.mul_left_comm]
  · refine Finset.sum_congr rfl fun t _ => ?_
    rw [mul_left_comm, ← pow_mul, ← pow_add, Nat.mul_left_comm 2, Nat.mul_succ, Nat.add_comm index]

/-- Half a turn further on the odd items count with the opposite sign. -/
theorem fourier_double_half {root : K} {half : Nat} (opposite : root ^ half = -1)
    (items : Nat → K) (index : Nat) :
    fourier root (2 * half) items (half + index) =
      fourier (root ^ 2) half (fun t => items (2 * t)) index -
        root ^ index * fourier (root ^ 2) half (fun t => items (2 * t + 1)) index := by
  -- The sums over half as many items have come full circle.
  have closes : (root ^ 2) ^ half = 1 := by
    rw [← pow_mul, Nat.mul_comm, pow_mul, opposite, neg_one_sq]
  rw [fourier_double, fourier_add_size closes, fourier_add_size closes, pow_add, opposite,
    neg_one_mul, neg_mul, sub_eq_add_neg]

/-- The root by whose powers a transform turns: the inverse one on the way forward. -/
def direction (root : K) (inverse : Bool) : K := if inverse then root else root⁻¹

/-- An arithmetic calculates in a field, without rounding, for transforms of a size. -/
structure Exact (arithmetic : Arithmetic R K) (size : Nat) (root : K) : Prop where
  add : ∀ x y, arithmetic.add x y = x + y
  sub : ∀ x y, arithmetic.sub x y = x - y
  mul : ∀ x y, arithmetic.mul x y = x * y
  twiddle : ∀ inverse step block, block ∣ size →
    arithmetic.twiddle inverse step block = direction root inverse ^ (step * (size / block))
  shrink : ∀ x, arithmetic.shrink size x = x / size

variable {arithmetic : Arithmetic R K} {root : K} {inverse : Bool} {bits : Nat} {items : Nat → K}

/-- Half a turn in either direction is the negative unit. -/
theorem direction_half {half : Nat} (primitive : IsPrimitiveRoot root (2 * half))
    (positive : 0 < half) : direction root inverse ^ half = -1 := by
  have turns : IsPrimitiveRoot (direction root inverse) (2 * half) := by
    cases inverse with
    | false => exact primitive.inv
    | true => exact primitive
  exact (turns.pow (by omega) (Nat.mul_comm 2 half)).eq_neg_one_of_two_right

/-- A stage merges the transforms of the even and of the odd items into that of all of them. -/
theorem merged_eq {size half gap block : Nat} (exact : Exact arithmetic size root)
    (span : size = gap * (2 * half)) (opposite : (direction root inverse ^ gap) ^ half = -1)
    {value : Nat → Nat → K}
    (even : ∀ step, step < half → value (2 * block) step =
      fourier ((direction root inverse ^ gap) ^ 2) half (fun t => items (2 * t)) step)
    (odd : ∀ step, step < half → value (2 * block + 1) step =
      fourier ((direction root inverse ^ gap) ^ 2) half (fun t => items (2 * t + 1)) step)
    {step : Nat} (within : step < 2 * half) :
    merged arithmetic inverse half value block step =
      fourier (direction root inverse ^ gap) (2 * half) items step := by
  -- A step within a block turns by as much as the gap between the items of the block.
  have turned : ∀ step, step < half → rotated arithmetic inverse half value block step =
      (direction root inverse ^ gap) ^ step *
        fourier ((direction root inverse ^ gap) ^ 2) half (fun t => items (2 * t + 1)) step := by
    intro step early
    have parts : size / (2 * half) = gap := by
      rw [span, Nat.mul_div_cancel gap (by omega)]
    rw [rotated, exact.mul, exact.twiddle _ _ _ (Dvd.intro_left gap span.symm), parts,
      odd step early, Nat.mul_comm step, pow_mul]
  rcases Nat.lt_or_ge step half with early | late
  · rw [merged_low early, exact.add, even step early, turned step early, fourier_double]
  · obtain ⟨offset, rfl⟩ := Nat.exists_eq_add_of_le late
    have before : offset < half := by omega
    rw [merged_high, exact.sub, even offset before, turned offset before,
      fourier_double_half opposite]

/-- After a stage every block holds the transform of the items that its bits have selected. -/
theorem passed_eq (exact : Exact arithmetic (2 ^ bits) root)
    (primitive : IsPrimitiveRoot root (2 ^ bits)) (inverse : Bool) (items : Nat → K)
    {level rest : Nat} (total : bits = level + rest) {block step : Nat}
    (among : block < 2 ^ rest) (within : step < 2 ^ level) :
    passed arithmetic inverse bits items level block step =
      fourier (direction root inverse ^ 2 ^ rest) (2 ^ level)
        (fun t => items (t * 2 ^ rest + reverseBits rest block)) step := by
  induction level generalizing rest block step with
  | zero =>
    -- A block of one item holds the item at its reversed index.
    obtain rfl : bits = rest := by omega
    simp [passed, fourier]
  | succ level ih =>
    have longer : bits = level + (rest + 1) := by omega
    have span : 2 ^ bits = 2 ^ rest * (2 * 2 ^ level) := by
      rw [← pow_succ', ← pow_add, total, Nat.add_comm]
    have opposite : (direction root inverse ^ 2 ^ rest) ^ 2 ^ level = -1 := by
      rw [← pow_mul]
      refine direction_half ?_ (by positivity)
      rwa [Nat.mul_left_comm, ← span]
    -- The root of the blocks before is the square of the one the stage turns by.
    have squared : direction root inverse ^ 2 ^ (rest + 1) =
        (direction root inverse ^ 2 ^ rest) ^ 2 := by
      rw [← pow_mul, pow_succ]
    have pairs : 2 * block + 1 < 2 ^ (rest + 1) := by
      rw [pow_succ]
      omega
    rw [pow_succ'] at within ⊢
    refine merged_eq exact span opposite (fun step early => ?_) (fun step early => ?_) within
    · -- The even items come from the first block of a pair.
      rw [ih longer (by omega) early, squared]
      simp only [reverseBits_double, pow_succ', ← Nat.mul_assoc, Nat.mul_comm _ 2]
    · -- The odd items come from the second one.
      rw [ih longer pairs early, squared]
      simp only [reverseBits_double_succ, pow_succ', ← Nat.mul_assoc, Nat.mul_comm _ 2,
        ← Nat.add_assoc, Nat.add_mul, Nat.one_mul]

/-- A transform forward sums with the inverse root, and one back with the root over the size. -/
theorem transformed_eq (exact : Exact arithmetic (2 ^ bits) root)
    (primitive : IsPrimitiveRoot root (2 ^ bits)) (inverse : Bool) (items : Nat → K) {index : Nat}
    (within : index < 2 ^ bits) :
    transformed arithmetic inverse bits items index =
      if inverse then fourier root (2 ^ bits) items index / (2 ^ bits : Nat)
      else fourier root⁻¹ (2 ^ bits) items index := by
  -- After the last stage one block is left, which no bits select.
  have whole := passed_eq exact primitive inverse items (Nat.add_zero bits).symm
    (Nat.two_pow_pos 0) within
  simp only [pow_zero, pow_one, mul_one, reverseBits, add_zero] at whole
  rw [transformed]
  cases inverse with
  | false => exact whole
  | true => exact (exact.shrink _).trans (congrArg (· / ((2 ^ bits : Nat) : K)) whole)

section Circle

/-- The arithmetic of complex numbers without rounding. -/
noncomputable def complexNumbers : Arithmetic ℝ ℂ where
  add := (· + ·)
  sub := (· - ·)
  mul := (· * ·)
  twiddle inverse step block :=
    Complex.exp ((if inverse then 1 else -1) * 2 * Real.pi * Complex.I * step / block)
  shrink size z := z / size
  embed x := x
  realPart z := z.re
  conjugate z := starRingEnd ℂ z

/-- The first of the points that divide the unit circle into equal parts. -/
noncomputable def circleRoot (size : Nat) : ℂ := Complex.exp (2 * Real.pi * Complex.I / size)

/-- The powers of the first point come around to one after as many steps as there are points. -/
theorem circleRoot_primitive {size : Nat} (positive : 0 < size) :
    IsPrimitiveRoot (circleRoot size) size :=
  Complex.isPrimitiveRoot_exp size positive.ne'

/-- Complex numbers turn by the points of the unit circle. -/
theorem complexNumbers_exact {size : Nat} (positive : 0 < size) :
    Exact complexNumbers size (circleRoot size) where
  add _ _ := rfl
  sub _ _ := rfl
  mul _ _ := rfl
  shrink _ := rfl
  twiddle inverse step block divides := by
    obtain ⟨parts, rfl⟩ := divides
    have whole : block ≠ 0 := (Nat.pos_of_mul_pos_right positive).ne'
    have some : parts ≠ 0 := (Nat.pos_of_mul_pos_left positive).ne'
    rw [Nat.mul_div_cancel_left _ (Nat.pos_of_ne_zero whole)]
    -- A step within a block is as far as all steps of the circle that the block leaves out.
    cases inverse with
    | false =>
      show Complex.exp ((if false then 1 else -1) * 2 * Real.pi * Complex.I * step / _) = _
      rw [direction, circleRoot, if_neg Bool.false_ne_true, if_neg Bool.false_ne_true,
        ← Complex.exp_neg, ← Complex.exp_nat_mul]
      congr 1
      push_cast
      field_simp
    | true =>
      show Complex.exp ((if true then 1 else -1) * 2 * Real.pi * Complex.I * step / _) = _
      rw [direction, circleRoot, if_pos rfl, if_pos rfl, ← Complex.exp_nat_mul]
      congr 1
      push_cast
      field_simp

end Circle

namespace Plan

variable {plan : Plan K}

/-- A complex transform is the discrete Fourier transform, forward, and its inverse, back. -/
theorem complexToComplex_fourier (ready : plan.Ready) (primitive : IsPrimitiveRoot root plan.size)
    (exact : Exact arithmetic plan.size root) {input output : Array K}
    (shows : Shows input plan.size items) (room : plan.size ≤ output.size) :
    (∃ next outcome, plan.complexToComplex arithmetic output input plan.size false =
        .ok (next, outcome) ∧ ∀ k, k < plan.size → outcome[k]? =
          some (∑ t ∈ Finset.range plan.size, items t * root⁻¹ ^ (k * t))) ∧
      ∃ next outcome, plan.complexToComplex arithmetic output input plan.size true =
        .ok (next, outcome) ∧ ∀ t, t < plan.size → outcome[t]? =
          some (1 / plan.size * ∑ k ∈ Finset.range plan.size, items k * root ^ (k * t)) := by
  -- Both ways are known by what each index of the output shows.
  obtain ⟨bits, power⟩ := ready.power
  obtain ⟨⟨next, outcome⟩, forward, front⟩ :=
    ready.complexToComplex arithmetic power false shows output room
  obtain ⟨⟨last, restored⟩, back, rear⟩ :=
    ready.complexToComplex arithmetic power true shows output room
  refine ⟨⟨next, outcome, forward, fun k within => ?_⟩, last, restored, back, fun t within => ?_⟩
  · have found := front.shows k within
    rw [power] at primitive exact within
    rw [transformed_eq exact primitive _ _ within, ← power] at found
    exact found
  · have found := rear.shows t within
    rw [power] at primitive exact within
    rw [transformed_eq exact primitive _ _ within, ← power, if_pos rfl] at found
    rw [found, fourier, one_div_mul_eq_div]
    simp only [Nat.mul_comm t]

/-- Four items are transformed to their sum in the first bin, and back to their mean. -/
theorem complexToComplex_fourier_four :
    let plan : Plan ℂ := ⟨4, .complexToComplex, Array.replicate 8 0⟩
    plan.Ready ∧ IsPrimitiveRoot (circleRoot 4) 4 ∧ Exact complexNumbers 4 (circleRoot 4) ∧
      Shows #[1, 2, 3, 4] 4 (fun t => (t : ℂ) + 1) ∧
      (∃ next outcome, plan.complexToComplex complexNumbers (Array.replicate 4 0) #[1, 2, 3, 4] 4
        false = .ok (next, outcome) ∧ outcome[0]? = some 10) ∧
      ∃ next outcome, plan.complexToComplex complexNumbers (Array.replicate 4 0) #[1, 2, 3, 4] 4
        true = .ok (next, outcome) ∧ outcome[0]? = some (5 / 2) := by
  intro plan
  have ready : plan.Ready := ⟨⟨2, rfl⟩, by simp [plan]⟩
  have primitive := circleRoot_primitive (show 0 < 4 by omega)
  have exact := complexNumbers_exact (show 0 < 4 by omega)
  have shows : Shows #[1, 2, 3, 4] 4 (fun t => (t : ℂ) + 1) := by
    intro index within
    obtain rfl | rfl | rfl | rfl : index = 0 ∨ index = 1 ∨ index = 2 ∨ index = 3 := by omega
    all_goals norm_num
  obtain ⟨⟨next, outcome, forward, bins⟩, last, restored, back, samples⟩ :=
    complexToComplex_fourier ready primitive exact shows
      (show plan.size ≤ (Array.replicate 4 (0 : ℂ)).size by simp [plan])
  have first := bins 0 (by simp [plan])
  have start := samples 0 (by simp [plan])
  simp only [plan, Nat.zero_mul, Nat.mul_zero, pow_zero, mul_one, Finset.sum_range_succ,
    Finset.sum_range_zero] at first start
  norm_num at first start
  exact ⟨ready, primitive, exact, shows, ⟨next, outcome, forward, first⟩,
    last, restored, back, start⟩

end Plan

end Mixdown.Fft
