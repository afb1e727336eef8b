import Mathlib.Data.Nat.Bitwise
import Mixdown.Proofs.Fft.Calls
import Mixdown.Spectrum

/-!
All bins of a spectrum have one rank each, by their amplitudes in the total order of patterns and, where
these are the same, by their indices. The strongest bins are the first ones of that ranking.
-/

namespace Mixdown

namespace Single

/-- The sign bit of a pattern is set. -/
def negative (word : Single) : Bool := word.bits &&& 0x80000000 ≠ 0

/-- All other bits of a pattern, as a number. -/
def magnitude (word : Single) : Nat := (word.bits &&& 0x7FFFFFFF).toNat

/-- One pattern lies below another in the total order: those with their sign set lie below those without,
and the greater magnitude lies further from zero on its own side. -/
def Below (left right : Single) : Prop :=
  match left.negative, right.negative with
  | true, false => True
  | false, true => False
  | false, false => left.magnitude < right.magnitude
  | true, true => right.magnitude < left.magnitude

/-- The magnitude of a pattern is what its sign bit leaves. -/
theorem magnitude_eq (word : Single) : word.magnitude = word.bits.toNat % 2 ^ 31 := by
  rw [magnitude, UInt32.toNat_and]
  exact Nat.and_two_pow_sub_one_eq_mod word.bits.toNat 31

/-- The sign of a pattern is its highest bit. -/
theorem negative_iff (word : Single) : word.negative ↔ 2 ^ 31 ≤ word.bits.toNat := by
  have bound := word.bits.toNat_lt
  have mask : (0x80000000 : UInt32).toNat = 2 ^ 31 := rfl
  -- Masking all other bits leaves zero just when the highest one is clear.
  rw [negative, decide_eq_true_eq, ne_eq, ← UInt32.toNat_inj, UInt32.toNat_and, mask,
    Nat.and_two_pow, UInt32.toNat_zero]
  cases bit : word.bits.toNat.testBit 31 with
  | false =>
    rw [Nat.testBit_eq_decide_div_mod_eq, decide_eq_false_iff_not] at bit
    rw [Bool.toNat_false]
    omega
  | true =>
    rw [Nat.testBit_eq_decide_div_mod_eq, decide_eq_true_eq] at bit
    rw [Bool.toNat_true]
    omega

/-- The key of a pattern with its sign set counts down from minus one. -/
theorem orderKey_eq (word : Single) : word.orderKey =
    if word.negative then -1 - (word.magnitude : Int) else word.magnitude := by
  rw [orderKey, negative]
  by_cases plain : word.bits &&& 0x80000000 = 0
  · simp [plain, magnitude]
  · simp [plain, magnitude]

/-- Keys are ordered as their patterns. -/
theorem orderKey_lt_iff (left right : Single) : left.orderKey < right.orderKey ↔ left.Below right := by
  -- Keys of one sign compare as the magnitudes or against them, and the signs decide between them.
  rw [orderKey_eq, orderKey_eq, Below]
  cases left.negative with
  | false =>
    cases right.negative with
    | false => simp
    | true => simp; omega
  | true =>
    cases right.negative with
    | false => simp; omega
    | true => simp

/-- Patterns with one key are one pattern. -/
theorem orderKey_inj {left right : Single} (same : left.orderKey = right.orderKey) : left = right := by
  have below := left.bits.toNat_lt
  have above := right.bits.toNat_lt
  have signs := left.negative_iff
  have others := right.negative_iff
  rw [orderKey_eq, orderKey_eq, magnitude_eq, magnitude_eq] at same
  -- The key tells the sign by its own, and then the magnitude, which together are all bits.
  have numbers : left.bits.toNat = right.bits.toNat := by
    cases first : left.negative with
    | false =>
      cases second : right.negative with
      | false => simp_all; omega
      | true => simp_all; omega
    | true =>
      cases second : right.negative with
      | false => simp_all; omega
      | true => simp_all; omega
  cases left
  cases right
  exact congrArg Single.mk (UInt32.toNat_inj.mp numbers)

end Single

namespace Spectrum

/-- One bin is ranked before another: the other one's amplitude lies below its own, or the two have one
amplitude and the other one comes later. -/
def Bin.Outranks (first second : Bin) : Prop :=
  second.amplitude.Below first.amplitude ∨
    first.amplitude = second.amplitude ∧ first.index < second.index

/-- A bin that is ranked before another does not lie below it. -/
theorem Bin.Outranks.not_below {first second : Bin} (ranked : first.Outranks second) :
    ¬first.amplitude.Below second.amplitude := by
  -- It lies above the other one or has the same key.
  rw [← Single.orderKey_lt_iff]
  rcases ranked with below | ⟨same, -⟩
  · have order := (Single.orderKey_lt_iff _ _).mpr below
    omega
  · rw [same]
    exact Int.lt_irrefl _

/-- Of two bins of one amplitude the one that is ranked before the other is the earlier one. -/
theorem Bin.Outranks.index_lt {first second : Bin} (ranked : first.Outranks second)
    (same : first.amplitude = second.amplitude) : first.index < second.index := by
  rcases ranked with below | ⟨-, earlier⟩
  · have order := (Single.orderKey_lt_iff _ _).mpr below
    rw [same] at order
    exact absurd order (Int.lt_irrefl _)
  · exact earlier

/-- Of three bins the first goes before the last when each goes before the next. -/
theorem Bin.precedes_trans (a b c : Bin) (first : a.precedes b) (second : b.precedes c) :
    a.precedes c := by
  simp only [precedes, decide_eq_true_eq] at first second ⊢
  exact Int.le_trans second first

/-- Of two bins one goes before the other. -/
theorem Bin.precedes_total (a b : Bin) : a.precedes b || b.precedes a := by
  simp only [precedes, Bool.or_eq_true, decide_eq_true_eq]
  exact Int.le_total _ _

/-- Bins of one amplitude are kept in their order when all are sorted. -/
theorem filter_mergeSort (bins : List Bin) (amplitude : Single) :
    (bins.mergeSort Bin.precedes).filter (·.amplitude = amplitude) =
      bins.filter (·.amplitude = amplitude) := by
  -- Bins of one amplitude are sorted already, so that a stable sort has them in their order.
  have level : (bins.filter (·.amplitude = amplitude)).Pairwise fun first second =>
      first.precedes second := by
    refine List.pairwise_of_forall_mem_list fun first here second there => ?_
    have same := of_decide_eq_true (List.mem_filter.mp here).2
    have too := of_decide_eq_true (List.mem_filter.mp there).2
    rw [Bin.precedes, same, too]
    exact decide_eq_true (Int.le_refl _)
  have kept := (List.sublist_mergeSort Bin.precedes_trans Bin.precedes_total level
    List.filter_sublist).filter (·.amplitude = amplitude)
  rw [List.filter_filter] at kept
  simp only [Bool.and_self] at kept
  -- Sorting adds no bin of that amplitude.
  exact (kept.eq_of_length ((List.mergeSort_perm bins _).filter _).length_eq.symm).symm

/-- Bins in the order of their indices are sorted into the order of their ranks. -/
theorem outranks_mergeSort {bins : List Bin}
    (ordered : bins.Pairwise fun first second => first.index < second.index) :
    (bins.mergeSort Bin.precedes).Pairwise Bin.Outranks := by
  have sorted := List.pairwise_mergeSort Bin.precedes_trans Bin.precedes_total bins
  refine List.pairwise_iff_forall_sublist.mpr fun {first second} pair => ?_
  have before := List.pairwise_iff_forall_sublist.mp sorted pair
  rw [Bin.precedes, decide_eq_true_eq] at before
  rcases Int.lt_or_eq_of_le before with below | level
  · exact .inl ((Single.orderKey_lt_iff _ _).mp below)
  · -- Of one amplitude, the two stand in the order in which they stood before sorting.
    have same : first.amplitude = second.amplitude := (Single.orderKey_inj level).symm
    have both : [first, second].filter (·.amplitude = second.amplitude) = [first, second] := by
      simp [same]
    have kept := pair.filter (·.amplitude = second.amplitude)
    rw [filter_mergeSort, both] at kept
    exact .inr ⟨same,
      List.pairwise_iff_forall_sublist.mp ordered (kept.trans List.filter_sublist)⟩

/-- Of two bins of the greatest amplitude the first comes first, and a weaker one comes last. -/
example : [⟨0, ⟨1⟩⟩, ⟨1, ⟨2⟩⟩, ⟨2, ⟨2⟩⟩].mergeSort Bin.precedes =
    [⟨1, ⟨2⟩⟩, ⟨2, ⟨2⟩⟩, ⟨0, ⟨1⟩⟩] := by cbv

/-- The signal of which the transform is taken: the samples under the window. -/
def signal (samples : List Single) (size instant : Nat) : Complex :=
  Complex.arithmetic.embed (windowed size instant (samples.getD instant default))

/-- The amplitude of a bin by the samples alone. -/
def amplitude (samples : List Single) (size index : Nat) : Single :=
  let z := Fft.transformed Complex.arithmetic false size.log2 (signal samples size) index
  .hypotenuse z.re z.im * (4 / .ofNat size)

/-- All bins of a spectrum, in the order of their indices. -/
def allBins (samples : List Single) (size : Nat) : List Bin :=
  (List.range (size / 2 + 1)).map fun index => ⟨index, amplitude samples size index⟩

/-- From fewer samples than the size there are no bins. -/
theorem bins_short {samples : List Single} {size : Nat} (short : samples.length < size) :
    bins samples size = .error (.request (.fewSamples size samples.length)) := by
  rw [bins, if_pos short]
  rfl

/-- The work buffer has twice the size. -/
theorem workElements_eq (size : Nat) : Fft.workSize size / Fft.elementSize = 2 * size :=
  Nat.mul_div_cancel _ (by decide)

/-- For a size that is not a power of two there are no bins. -/
theorem bins_uneven {samples : List Single} {size : Nat} (enough : size ≤ samples.length)
    (uneven : ¬size.isPowerOfTwo) : bins samples size = .error (.sampleCount size) := by
  rw [bins, if_neg (Nat.not_lt.mpr enough)]
  simp only [Fft.Plan.create, if_pos uneven]
  rfl

/-- The first samples under the window are the signal. -/
theorem shows_windowed {samples : List Single} {size : Nat} (enough : size ≤ samples.length) :
    Fft.Shows ((samples.take size).mapIdx fun index sample => windowed size index sample).toArray
      size fun instant => windowed size instant (samples.getD instant default) := by
  intro instant early
  have inside : instant < samples.length := by omega
  rw [List.getElem?_toArray, List.getElem?_mapIdx, List.getElem?_take_of_lt early,
    List.getElem?_eq_getElem inside, Option.map_some]
  simp only [List.getD_eq_getElem _ _ inside]

/-- The answer of a plan that fills its output is a spectrum of all bins. -/
theorem mapIdx_refill (samples : List Single) (size : Nat) (silent : Complex) :
    (Fft.refill (Array.replicate (size / 2 + 1) silent) (size / 2 + 1)
        (Fft.transformed Complex.arithmetic false size.log2 (signal samples size))).toList.mapIdx
      (fun index z => (⟨index, .hypotenuse z.re z.im * (4 / .ofNat size)⟩ : Bin)) =
        allBins samples size := by
  -- The output is as long as the list of bins, and all of it is filled.
  apply List.ext_getElem?
  intro index
  rw [List.getElem?_mapIdx, Array.getElem?_toList, Fft.getElem?_refill, allBins, List.getElem?_map]
  rcases Nat.lt_or_ge index (size / 2 + 1) with early | late
  · rw [Array.getElem?_replicate, if_pos early, List.getElem?_range early, Option.map_some,
      Option.map_some, Option.map_some, if_pos early]
    rfl
  · rw [Array.getElem?_replicate, if_neg (Nat.not_lt.mpr late),
      List.getElem?_eq_none (by rw [List.length_range]; exact late)]
    rfl

/-- From enough samples all bins are found. -/
theorem bins_eq {samples : List Single} {size : Nat} (enough : size ≤ samples.length)
    (power : size.isPowerOfTwo) : bins samples size = .ok (allBins samples size) := by
  let silent : Complex := ⟨0, 0⟩
  let plan : Fft.Plan Complex := ⟨size, .realToComplex, Array.replicate (2 * size) silent⟩
  have ready : plan.Ready := ⟨power, by rw [Array.size_replicate]⟩
  have made := Fft.Plan.create_eq_ok_iff.mpr ⟨rfl, ready⟩
  obtain ⟨bits, rfl⟩ := power
  -- The output has just the room that the spectrum of a plan takes.
  have room : 2 ^ bits / 2 + 1 ≤ (Array.replicate (2 ^ bits / 2 + 1) silent).size := by
    rw [Array.size_replicate]
  obtain ⟨⟨next, spectrum⟩, ran, answers⟩ := ready.realToComplex Complex.arithmetic rfl
    (shows_windowed enough) (Array.replicate (2 ^ bits / 2 + 1) silent) room
  obtain rfl : spectrum = _ := answers.output_eq room
  rw [bins, if_neg (Nat.not_lt.mpr enough)]
  simp only [workElements_eq]
  have shown := mapIdx_refill samples (2 ^ bits) silent
  rw [Nat.log2_two_pow] at shown
  rw [made]
  simp only [ok_bind]
  rw [ran, ok_bind]
  exact congrArg Except.ok shown

/-- All bins in the order of their ranks. -/
def ranking (samples : List Single) (size : Nat) : List Bin :=
  (allBins samples size).mergeSort Bin.precedes

/-- The ranking holds the bins of a spectrum, each once. -/
theorem ranking_perm (samples : List Single) (size : Nat) :
    (ranking samples size).Perm (allBins samples size) := List.mergeSort_perm _ _

/-- The indices of all bins are the first numbers. -/
theorem map_index_allBins (samples : List Single) (size : Nat) :
    (allBins samples size).map Bin.index = List.range (size / 2 + 1) := by
  rw [allBins, List.map_map]
  exact List.map_id _

/-- The bins of a ranking stand in the order of their ranks. -/
theorem ranking_pairwise (samples : List Single) (size : Nat) :
    (ranking samples size).Pairwise Bin.Outranks := by
  refine outranks_mergeSort (List.pairwise_map.mp ?_)
  rw [map_index_allBins]
  exact List.pairwise_lt_range

/-- There are as many bins in a ranking as there are in the spectrum. -/
theorem length_ranking (samples : List Single) (size : Nat) :
    (ranking samples size).length = size / 2 + 1 := by
  rw [(ranking_perm samples size).length_eq, allBins, List.length_map, List.length_range]

/-- The first bins of a ranking outrank all others. -/
theorem outranks_omitted (samples : List Single) (size count : Nat) {chosen omitted : Bin}
    (early : chosen ∈ (ranking samples size).take count)
    (late : omitted ∈ (ranking samples size).drop count) : chosen.Outranks omitted := by
  -- What is taken stands in front of what is left.
  have ranked := ranking_pairwise samples size
  rw [← List.take_append_drop count (ranking samples size)] at ranked
  exact (List.pairwise_append.mp ranked).2.2 chosen early omitted late

/-- From enough samples the strongest bins are the first ones of the ranking. -/
theorem strongest_eq {samples : List Single} {size : Nat} (enough : size ≤ samples.length)
    (power : size.isPowerOfTwo) (rate count : Nat) : strongest samples size rate count =
      .ok (((ranking samples size).take count).map (·.peak size rate)) := by
  rw [strongest, bins_eq enough power]
  rfl

/--
The strongest bins are refused from fewer samples than the size and for a size that is not a power of two,
and for nothing else. Otherwise there is one ranking of all bins from zero to half the size, by descending
amplitude in the total order of patterns and then by ascending index, and those asked for are its first
ones: as many as there are at most, none of them outranked by one that is left out, and continued by those
that are found for a larger count.
-/
theorem strongest_ranked (samples : List Single) (size : Nat) :
    (∀ rate count, (∃ error, strongest samples size rate count = .error error) ↔
        samples.length < size ∨ ¬size.isPowerOfTwo) ∧
      (samples.length < size → ∀ rate count, strongest samples size rate count =
        .error (.request (.fewSamples size samples.length))) ∧
      (size ≤ samples.length → ¬size.isPowerOfTwo → ∀ rate count,
        strongest samples size rate count = .error (.sampleCount size)) ∧
      (size ≤ samples.length → size.isPowerOfTwo → ∃ ranked : List Bin,
        (ranked.map Bin.index).Perm (List.range (size / 2 + 1)) ∧
        (∀ bin ∈ ranked, bin.amplitude = amplitude samples size bin.index) ∧
        ranked.Pairwise Bin.Outranks ∧
        ∀ rate count, ∃ peaks, strongest samples size rate count = .ok peaks ∧
          peaks = (ranked.take count).map (fun bin =>
            ⟨.ofNat bin.index * .ofNat rate / .ofNat size, decibelsOfGain bin.amplitude⟩) ∧
          peaks.length = min count (size / 2 + 1) ∧
          (∀ chosen ∈ ranked.take count, ∀ omitted ∈ ranked.drop count,
            chosen.Outranks omitted ∧ ¬chosen.amplitude.Below omitted.amplitude) ∧
          ∀ more, count ≤ more → ∃ longer,
            strongest samples size rate more = .ok longer ∧ peaks <+: longer) := by
  have short (few : samples.length < size) (rate count : Nat) :
      strongest samples size rate count = .error (.request (.fewSamples size samples.length)) := by
    rw [strongest, bins_short few]
    rfl
  have uneven (enough : size ≤ samples.length) (odd : ¬size.isPowerOfTwo) (rate count : Nat) :
      strongest samples size rate count = .error (.sampleCount size) := by
    rw [strongest, bins_uneven enough odd]
    rfl
  -- The ranking is made before the count is looked at, so that every count takes its front.
  refine ⟨fun rate count => ⟨?_, ?_⟩, short, uneven, fun enough power =>
    ⟨ranking samples size, ?_, ?_, ranking_pairwise samples size, fun rate count => ?_⟩⟩
  · rintro ⟨error, refused⟩
    by_contra fine
    obtain ⟨enough, power⟩ := not_or.mp fine
    rw [strongest_eq (Nat.not_lt.mp enough) (not_not.mp power)] at refused
    cases refused
  · intro wrong
    rcases Nat.lt_or_ge samples.length size with few | enough
    · exact ⟨_, short few rate count⟩
    · exact ⟨_, uneven enough (wrong.resolve_left (Nat.not_lt.mpr enough)) rate count⟩
  · rw [← map_index_allBins samples]
    exact (ranking_perm samples size).map Bin.index
  · intro bin here
    obtain ⟨index, -, rfl⟩ := List.mem_map.mp ((ranking_perm samples size).mem_iff.mp here)
    rfl
  · refine ⟨_, strongest_eq enough power rate count, rfl, ?_, fun chosen early omitted late => ?_,
      fun more larger => ⟨_, strongest_eq enough power rate more, ?_⟩⟩
    · rw [List.length_map, List.length_take, length_ranking]
    · have ranked := outranks_omitted samples size count early late
      exact ⟨ranked, ranked.not_below⟩
    · exact (List.take_prefix_take_left larger).map _

/-- Two bins of three are found, and the one left out when more are asked for; were their levels all
the same, those found would be the first two. -/
theorem strongest_ranked_four :
    let samples : List Single := [⟨0x3F800000⟩, ⟨0xBF800000⟩, ⟨0x3F000000⟩, ⟨0x3F800000⟩]
    (4 ≤ samples.length ∧ Nat.isPowerOfTwo 4 ∧ samples.length < 8 ∧ ¬Nat.isPowerOfTwo 0 ∧ 2 ≤ 5) ∧
      (∃ first second omitted : Bin,
        [first.index, second.index, omitted.index].Perm [0, 1, 2] ∧
        first.Outranks second ∧ second.Outranks omitted ∧
        (amplitude samples 4 0 = amplitude samples 4 1 →
          amplitude samples 4 1 = amplitude samples 4 2 →
            first.index = 0 ∧ second.index = 1 ∧ omitted.index = 2) ∧
        strongest samples 4 48000 2 = .ok [first.peak 4 48000, second.peak 4 48000] ∧
        strongest samples 4 48000 5 =
          .ok [first.peak 4 48000, second.peak 4 48000, omitted.peak 4 48000]) ∧
      strongest samples 8 48000 2 = .error (.request (.fewSamples 8 4)) ∧
      strongest samples 0 48000 2 = .error (.sampleCount 0) := by
  intro samples
  have power : Nat.isPowerOfTwo 4 := ⟨2, rfl⟩
  have odd : ¬Nat.isPowerOfTwo 0 := fun ⟨bits, same⟩ => by
    have := Nat.two_pow_pos bits
    omega
  obtain ⟨-, -, -, found⟩ := strongest_ranked samples 4
  obtain ⟨ranked, indices, levels, order, peaks⟩ := found (by decide) power
  -- There are three bins, of which the first two are taken and the last one is left out.
  have three := indices.length_eq
  rw [List.length_map, List.length_range] at three
  obtain ⟨first, second, omitted, rfl⟩ := List.length_eq_three.mp three
  obtain ⟨two, some, rfl, -⟩ := peaks 48000 2
  obtain ⟨five, all, rfl, -⟩ := peaks 48000 5
  simp only [List.pairwise_cons, List.mem_cons, List.not_mem_nil, or_false, forall_eq_or_imp,
    forall_eq] at order levels
  obtain ⟨⟨above, -⟩, below, -⟩ := order
  refine ⟨⟨by decide, power, by decide, odd, by decide⟩,
    ⟨first, second, omitted, indices, above, below, fun low high => ?_, some, all⟩,
    (strongest_ranked samples 8).2.1 (by decide) 48000 2,
    (strongest_ranked samples 0).2.2.1 (by decide) odd 48000 2⟩
  -- Of one level, bins are ranked by their indices, of which there are just three.
  have level : ∀ bin : Bin, bin.amplitude = amplitude samples 4 bin.index →
      bin.index ∈ [0, 1, 2] → bin.amplitude = amplitude samples 4 0 ∧ bin.index < 3 := by
    intro bin own here
    rw [own]
    rcases bin with ⟨index, height⟩
    simp only [List.mem_cons, List.not_mem_nil, or_false] at here
    rcases here with rfl | rfl | rfl
    · exact ⟨rfl, show 0 < 3 by decide⟩
    · exact ⟨low.symm, show 1 < 3 by decide⟩
    · exact ⟨(low.trans high).symm, show 2 < 3 by decide⟩
  obtain ⟨flat, -⟩ := level first levels.1 (indices.mem_iff.mp (by simp))
  obtain ⟨even, -⟩ := level second levels.2.1 (indices.mem_iff.mp (by simp))
  obtain ⟨equal, last⟩ := level omitted levels.2.2 (indices.mem_iff.mp (by simp))
  have earlier := above.index_lt (flat.trans even.symm)
  have later := below.index_lt (even.trans equal.symm)
  omega

end Spectrum

end Mixdown
