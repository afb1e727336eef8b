import Mathlib.Algebra.BigOperators.Field
import Mixdown.Proofs.Fft.Fourier

/-! Transforms there and back over complex numbers without rounding give back what went in. -/

namespace Mixdown.Fft

section Orthogonality

variable {K : Type} [Field K] {root : K} {size : Nat}

/-- The turns of two indices against each other cancel out unless the indices are the same. -/
theorem sum_turns (primitive : IsPrimitiveRoot root size) {index other : Nat} (here : index < size)
    (there : other < size) :
    ∑ k ∈ Finset.range size, root⁻¹ ^ (k * other) * root ^ (index * k) =
      if other = index then (size : K) else 0 := by
  have nonzero : root ≠ 0 := primitive.ne_zero (by omega)
  -- Each summand is a power of how far the two indices turn together.
  have powers : ∀ k, root⁻¹ ^ (k * other) * root ^ (index * k) =
      (root ^ index * root⁻¹ ^ other) ^ k := by
    intro k
    rw [mul_pow, ← pow_mul, ← pow_mul, mul_comm, Nat.mul_comm k]
  rw [Finset.sum_congr rfl fun k _ => powers k]
  by_cases same : other = index
  · subst same
    rw [if_pos rfl, ← mul_pow, mul_inv_cancel₀ nonzero, one_pow]
    simp
  · rw [if_neg same]
    have turned : root ^ index * root⁻¹ ^ other - 1 ≠ 0 := by
      intro still
      have equal : root ^ index = root ^ other := by
        rwa [sub_eq_zero, inv_pow, mul_inv_eq_one₀ (pow_ne_zero other nonzero)] at still
      exact same (primitive.pow_inj here there equal).symm
    have closes : (root ^ index * root⁻¹ ^ other) ^ size = 1 := by
      rw [mul_pow, pow_right_comm, pow_right_comm root⁻¹, primitive.pow_eq_one,
        primitive.inv.pow_eq_one, one_pow, one_pow, one_mul]
    -- A geometric sum over the whole circle ends where it began.
    have sum := geom_sum_mul (root ^ index * root⁻¹ ^ other) size
    rw [closes, sub_self] at sum
    exact (mul_eq_zero.mp sum).resolve_right turned

/-- A sum only looks at as many items as it has. -/
theorem fourier_congr {items others : Nat → K}
    (same : ∀ t, t < size → items t = others t) (index : Nat) :
    fourier root size items index = fourier root size others index :=
  Finset.sum_congr rfl fun t within => by rw [same t (Finset.mem_range.mp within)]

/-- A sum over items that are all divided by a number is the sum divided by it. -/
theorem fourier_div (items : Nat → K) (divisor : K) (index : Nat) :
    fourier root size (fun t => items t / divisor) index =
      fourier root size items index / divisor := by
  rw [fourier, fourier, Finset.sum_div]
  exact Finset.sum_congr rfl fun t _ => div_mul_eq_mul_div _ _ _

/-- Turning all items forward and back again makes each of them as large as there are items. -/
theorem fourier_fourier (primitive : IsPrimitiveRoot root size) (items : Nat → K) {index : Nat}
    (within : index < size) :
    fourier root size (fourier root⁻¹ size items) index = size * items index := by
  -- Summed over the first index, the turns cancel unless the other two agree.
  calc fourier root size (fourier root⁻¹ size items) index
      = ∑ k ∈ Finset.range size, ∑ t ∈ Finset.range size,
          items t * (root⁻¹ ^ (k * t) * root ^ (index * k)) := by
        simp only [fourier, Finset.sum_mul, mul_assoc]
    _ = ∑ t ∈ Finset.range size, items t *
          ∑ k ∈ Finset.range size, root⁻¹ ^ (k * t) * root ^ (index * k) := by
        rw [Finset.sum_comm]
        simp only [Finset.mul_sum]
    _ = ∑ t ∈ Finset.range size, if t = index then items t * size else 0 := by
        refine Finset.sum_congr rfl fun t early => ?_
        rw [sum_turns primitive within (Finset.mem_range.mp early), mul_ite, mul_zero]
    _ = size * items index := by
        rw [Finset.sum_ite_eq', if_pos (Finset.mem_range.mpr within), mul_comm]

end Orthogonality

section Transforms

variable {bits index : Nat}

/-- A transform of complex numbers turns by the points of the unit circle. -/
theorem transformed_complex (inverse : Bool) (items : Nat → ℂ) (within : index < 2 ^ bits) :
    transformed complexNumbers inverse bits items index =
      if inverse then fourier (circleRoot (2 ^ bits)) (2 ^ bits) items index / (2 ^ bits : Nat)
      else fourier (circleRoot (2 ^ bits))⁻¹ (2 ^ bits) items index :=
  transformed_eq (complexNumbers_exact (Nat.two_pow_pos bits))
    (circleRoot_primitive (Nat.two_pow_pos bits)) inverse items within

/-- What a transform leaves depends on no more items than it has. -/
theorem transformed_congr {items others : Nat → ℂ} (inverse : Bool)
    (same : ∀ t, t < 2 ^ bits → items t = others t) (within : index < 2 ^ bits) :
    transformed complexNumbers inverse bits items index =
      transformed complexNumbers inverse bits others index := by
  rw [transformed_complex inverse items within, transformed_complex inverse others within]
  simp only [fourier_congr same]

/-- Transforming one way and then the other leaves every item as it was. -/
theorem transformed_transformed (inverse : Bool) (items : Nat → ℂ) (within : index < 2 ^ bits) :
    transformed complexNumbers (!inverse) bits (transformed complexNumbers inverse bits items)
      index = items index := by
  have primitive := circleRoot_primitive (Nat.two_pow_pos bits)
  have size : ((2 ^ bits : Nat) : ℂ) ≠ 0 := Nat.cast_ne_zero.mpr (Nat.two_pow_pos bits).ne'
  have inner : ∀ t, t < 2 ^ bits → _ := fun t => transformed_complex inverse items
  rw [transformed_complex (!inverse) _ within, fourier_congr inner, fourier_congr inner]
  cases inverse with
  | false =>
    -- Dividing by the size comes last on the way back.
    simp only [Bool.not_false, if_true, Bool.false_eq_true, if_false]
    rw [fourier_fourier primitive items within, mul_div_cancel_left₀ _ size]
  | true =>
    -- Going back first, the sums forward are those of items already divided.
    simp only [Bool.not_true, if_true, Bool.false_eq_true, if_false]
    have turned := fourier_fourier primitive.inv items within
    rw [inv_inv] at turned
    rw [fourier_div, turned, mul_div_cancel_left₀ _ size]

/-- The conjugate of a point on the unit circle is its inverse. -/
theorem conj_circleRoot (size : Nat) :
    starRingEnd ℂ (circleRoot size) = (circleRoot size)⁻¹ := by
  rw [circleRoot, ← Complex.exp_conj, ← Complex.exp_neg]
  congr 1
  simp [neg_div, map_ofNat]

/-- In the spectrum of a real signal the bins above the middle mirror those below it. -/
theorem mirrored_eq (items : Nat → ℝ) (within : index < 2 ^ bits) :
    mirrored complexNumbers (2 ^ bits)
        (transformed complexNumbers false bits fun t => complexNumbers.embed (items t)) index =
      transformed complexNumbers false bits (fun t => complexNumbers.embed (items t)) index := by
  rw [mirrored]
  by_cases early : index < 2 ^ bits / 2 + 1
  · rw [if_pos early]
  rw [if_neg early, transformed_complex false _ (by omega), transformed_complex false _ within,
    if_neg Bool.false_ne_true, if_neg Bool.false_ne_true]
  -- Conjugation turns every item the other way, and the whole circle counts for nothing.
  show starRingEnd ℂ (fourier _ _ _ _) = _
  rw [fourier, fourier, map_sum]
  refine Finset.sum_congr rfl fun t _ => ?_
  have around : circleRoot (2 ^ bits) ^ ((2 ^ bits - index) * t) *
      circleRoot (2 ^ bits) ^ (index * t) = 1 := by
    rw [← pow_add, ← Nat.add_mul, Nat.sub_add_cancel within.le, pow_mul,
      (circleRoot_primitive (Nat.two_pow_pos bits)).pow_eq_one, one_pow]
  rw [map_mul, map_pow, map_inv₀, conj_circleRoot, inv_inv, inv_pow,
    eq_inv_of_mul_eq_one_left around]
  exact congrArg (· * _) (Complex.conj_ofReal (items t))

end Transforms

namespace Plan

variable {plan : Plan ℂ}

/-- A complex transform one way and then the other gives back its input. -/
theorem Ready.complexToComplex_back (ready : plan.Ready) (inverse : Bool)
    {input first second : Array ℂ} {items : Nat → ℂ} (shows : Shows input plan.size items)
    (room : plan.size ≤ first.size) (space : plan.size ≤ second.size) :
    ∃ next spectrum last outcome,
      plan.complexToComplex complexNumbers first input plan.size inverse = .ok (next, spectrum) ∧
      next.complexToComplex complexNumbers second spectrum plan.size (!inverse) =
        .ok (last, outcome) ∧ Shows outcome plan.size items := by
  obtain ⟨bits, power⟩ := ready.power
  obtain ⟨⟨next, spectrum⟩, goes, there⟩ :=
    ready.complexToComplex complexNumbers power inverse shows first room
  -- The plan that the first transform leaves is ready for the second one.
  have same : next.size = plan.size := there.size
  obtain ⟨⟨last, outcome⟩, comes, back⟩ := there.ready.complexToComplex complexNumbers
    (same.trans power) (!inverse) (by rw [same]; exact there.shows) second
    (by rw [same]; exact space)
  rw [same] at comes
  refine ⟨next, spectrum, last, outcome, goes, comes, fun index within => ?_⟩
  rw [back.shows index (by rw [same]; exact within),
    transformed_transformed inverse items (by rw [← power]; exact within)]

/-- The bins that a real transform answers with, put back to the front of a work buffer and mirrored
there, are the whole spectrum that the transform has left. -/
theorem Ready.rebuilt {bits : Nat} (ready : plan.Ready) (power : plan.size = 2 ^ bits)
    {spectrum : Array ℂ} {items : Nat → ℝ}
    (shows : Shows spectrum (plan.size / 2 + 1)
      (transformed complexNumbers false bits fun t => complexNumbers.embed (items t))) :
    ∃ filled rebuilt,
      overwrite plan.work (spectrum.toList.take (plan.size / 2 + 1)) = .ok filled ∧
      mirror complexNumbers plan.size filled = .ok rebuilt ∧
      Shows rebuilt plan.size
        (transformed complexNumbers false bits fun t => complexNumbers.embed (items t)) := by
  have space := ready.room
  rw [power] at shows space ⊢
  have halves := two_pow_halves bits
  have positive := Nat.two_pow_pos bits
  obtain ⟨filled, writes, total, front, -⟩ :=
    (shows.lists (Nat.le_refl _)).overwrite plan.work (by omega)
  obtain ⟨rebuilt, mirrors, -, whole⟩ := mirror_eq complexNumbers (by omega) front
  refine ⟨filled, rebuilt, writes, mirrors, fun index within => ?_⟩
  -- The bins that were left out are the mirror images that are put in their place.
  rw [whole index within, mirrored_eq items within]

/-- A transform of real samples is undone by the one back to real samples. -/
theorem Ready.realToComplex_back (ready : plan.Ready) {input output : Array ℝ} {bins : Array ℂ}
    {items : Nat → ℝ} (shows : Shows input plan.size items) (room : plan.size / 2 + 1 ≤ bins.size)
    (space : plan.size ≤ output.size) :
    ∃ next spectrum last outcome,
      plan.realToComplex complexNumbers bins input plan.size = .ok (next, spectrum) ∧
      fullSpectrum complexNumbers plan.size spectrum.toList = next.work.toList.take plan.size ∧
      (∃ filled rebuilt,
        overwrite next.work (spectrum.toList.take (plan.size / 2 + 1)) = .ok filled ∧
        mirror complexNumbers plan.size filled = .ok rebuilt ∧
        rebuilt.toList.take plan.size = next.work.toList.take plan.size) ∧
      next.complexToReal complexNumbers output spectrum plan.size = .ok (last, outcome) ∧
      Shows outcome plan.size items := by
  obtain ⟨bits, power⟩ := ready.power
  obtain ⟨⟨next, spectrum⟩, goes, there⟩ := ready.realToComplex complexNumbers power shows bins room
  have same : next.size = plan.size := there.size
  obtain ⟨⟨last, outcome⟩, comes, back⟩ := there.ready.complexToReal complexNumbers
    (same.trans power) (by rw [same]; exact there.shows) output (by rw [same]; exact space)
  rw [same] at comes
  refine ⟨next, spectrum, last, outcome, goes, ?_, ?_, comes, fun index within => ?_⟩
  · -- The list that is written out is the one that the transform has left.
    have bins := there.shows
    have work := there.work
    rw [power] at bins work ⊢
    refine (fullSpectrum_lists fun index within => ?_).eq (work.lists (Nat.le_refl _))
      fun index within => mirrored_eq items within
    rw [Array.getElem?_toList]
    exact bins index within
  · obtain ⟨filled, rebuilt, writes, mirrors, whole⟩ :=
      there.ready.rebuilt (same.trans power) (by rw [same]; exact there.shows)
    rw [same] at writes mirrors whole
    exact ⟨filled, rebuilt, writes, mirrors, (whole.lists (Nat.le_refl _)).eq
      (there.work.lists (Nat.le_refl _)) fun _ _ => rfl⟩
  · -- What is transformed back is therefore the whole spectrum of the samples.
    have found := back.shows index (by rw [same]; exact within)
    rw [same] at found
    rw [power] at within found
    have whole := transformed_transformed false (fun t => complexNumbers.embed (items t)) within
    rw [Bool.not_false] at whole
    rw [found, transformed_congr true (fun t => mirrored_eq items) within, whole]
    exact congrArg some (Complex.ofReal_re (items index))

/-- Transforms on one plan undo each other, of complex items in both orders and of real ones, where
the way back rebuilds in the work buffer the bins that the way there has left out. -/
theorem transforms_undone (ready : plan.Ready) :
    (∀ inverse (input first second : Array ℂ) items, Shows input plan.size items →
      plan.size ≤ first.size → plan.size ≤ second.size → ∃ next spectrum last outcome,
        plan.complexToComplex complexNumbers first input plan.size inverse =
          .ok (next, spectrum) ∧
        next.complexToComplex complexNumbers second spectrum plan.size (!inverse) =
          .ok (last, outcome) ∧ Shows outcome plan.size items) ∧
      ∀ (input output : Array ℝ) (bins : Array ℂ) items, Shows input plan.size items →
        plan.size / 2 + 1 ≤ bins.size → plan.size ≤ output.size → ∃ next spectrum last outcome,
          plan.realToComplex complexNumbers bins input plan.size = .ok (next, spectrum) ∧
          fullSpectrum complexNumbers plan.size spectrum.toList =
            next.work.toList.take plan.size ∧
          (∃ filled rebuilt,
            overwrite next.work (spectrum.toList.take (plan.size / 2 + 1)) = .ok filled ∧
            mirror complexNumbers plan.size filled = .ok rebuilt ∧
            rebuilt.toList.take plan.size = next.work.toList.take plan.size) ∧
          next.complexToReal complexNumbers output spectrum plan.size = .ok (last, outcome) ∧
          Shows outcome plan.size items :=
  ⟨fun inverse _ _ _ _ shows room space => ready.complexToComplex_back inverse shows room space,
    fun _ _ _ _ shows room space => ready.realToComplex_back shows room space⟩

/-- Four real samples come back from the three bins of their spectrum and the one that mirrors one
of these, and four complex ones from all bins of theirs. -/
theorem transforms_undone_four :
    let plan : Plan ℂ := ⟨4, .realToComplex, Array.replicate 9 0⟩
    plan.Ready ∧
      (∃ next spectrum rebuilt last outcome,
        plan.realToComplex complexNumbers #[0, 0, 0] #[3, 5, 0, 2] 4 = .ok (next, spectrum) ∧
        (∃ filled, overwrite next.work (spectrum.toList.take 3) = .ok filled ∧
          mirror complexNumbers 4 filled = .ok rebuilt) ∧
        rebuilt.toList.take 4 = next.work.toList.take 4 ∧
        next.complexToReal complexNumbers (Array.replicate 4 0) spectrum 4 = .ok (last, outcome) ∧
        ∀ index, index < 4 → outcome[index]? = [3, 5, 0, 2][index]?) ∧
      ∃ next spectrum last outcome,
        plan.complexToComplex complexNumbers (Array.replicate 4 0) #[3, Complex.I, 0, 2] 4 true =
          .ok (next, spectrum) ∧
        next.complexToComplex complexNumbers (Array.replicate 4 0) spectrum 4 false =
          .ok (last, outcome) ∧
        ∀ index, index < 4 → outcome[index]? = [3, Complex.I, 0, 2][index]? := by
  intro plan
  have ready : plan.Ready := ⟨⟨2, rfl⟩, by simp [plan]⟩
  -- Arrays of four show the lists that they are written down as.
  have list : ∀ {A : Type} (a b c d : A), Shows #[a, b, c, d] 4 fun index =>
      [a, b, c, d].getD index a := by
    intro A a b c d index within
    obtain rfl | rfl | rfl | rfl : index = 0 ∨ index = 1 ∨ index = 2 ∨ index = 3 := by omega
    all_goals rfl
  obtain ⟨complex, real⟩ := transforms_undone ready
  obtain ⟨next, spectrum, last, outcome, goes, -, ⟨filled, rebuilt, writes, mirrors, whole⟩, comes,
    back⟩ := real #[3, 5, 0, 2] (Array.replicate 4 0) #[0, 0, 0] _ (list 3 5 0 2) (by simp [plan])
      (by simp [plan])
  obtain ⟨middle, bins, final, items, forth, inverse, again⟩ :=
    complex true #[3, Complex.I, 0, 2] (Array.replicate 4 0) (Array.replicate 4 0) _
      (list 3 Complex.I 0 2) (by simp [plan]) (by simp [plan])
  refine ⟨ready, ⟨next, spectrum, rebuilt, last, outcome, goes,
    ⟨filled, by simpa [plan] using writes, mirrors⟩, whole, comes, fun index within => ?_⟩,
    middle, bins, final, items, forth, inverse, fun index within => ?_⟩
  · rw [back index within, ← list 3 5 0 2 index within]
    simp
  · rw [again index within, ← list 3 Complex.I 0 2 index within]
    simp

end Plan

end Mixdown.Fft
