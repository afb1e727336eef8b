import Mathlib.Tactic.Positivity
import Mixdown.Signal.Fixed

/-!
Products of fixed-point numbers are rounded down and held inside the word. A number reads back as the
nearest integer, a half rounded up, unless the half does not fit above it: then it reads back as the least
integer, and so does every product that is held at the upper end.
-/

namespace Mixdown

/-- A count of bits below the width of the word is itself the count by which the word is shifted. -/
theorem shiftCount_eq {bits : Nat} (inside : bits < 64) :
    (Int64.ofNat bits).toBitVec.smod 64 = BitVec.ofNat 64 bits := by
  have count : (Int64.ofNat bits).toBitVec = BitVec.ofNat 64 bits := rfl
  -- Neither the count nor the width has its sign set, so that the remainder is that of numbers.
  have plain : (BitVec.ofNat 64 bits).msb = false := by
    rw [BitVec.msb_eq_decide, BitVec.toNat_ofNat, decide_eq_false_iff_not]
    omega
  have width : (64 : BitVec 64).msb = false := by decide
  rw [count, BitVec.smod, plain, width]
  apply BitVec.eq_of_toNat_eq
  have small : bits < 2 ^ 64 := by omega
  simp only [BitVec.umod_eq, BitVec.toNat_umod, BitVec.toNat_ofNat, Nat.mod_eq_of_lt small]
  exact Nat.mod_eq_of_lt inside

/-- A word that is shifted to the right is divided by a power of two, rounding down. -/
theorem toInt_shiftRight (word : Int64) {bits : Nat} (inside : bits < 64) :
    (word >>> Int64.ofNat bits).toInt = word.toInt / 2 ^ bits := by
  rw [← Int64.toInt_toBitVec, Int64.toBitVec_shiftRight, shiftCount_eq inside,
    BitVec.sshiftRight_eq', BitVec.toInt_sshiftRight, Int.shiftRight_eq_div_pow,
    BitVec.toNat_ofNat, Nat.mod_eq_of_lt (by omega), Int64.toInt_toBitVec]
  norm_cast

/-- One that is shifted to the left below the sign is a power of two. -/
theorem toInt_one_shiftLeft {bits : Nat} (inside : bits < 63) :
    ((1 : Int64) <<< Int64.ofNat bits).toInt = 2 ^ bits := by
  -- The power stays below the sign, so that no bit is lost.
  have one : (1 : Int64).toBitVec.toNat = 1 := rfl
  have low : (0 : Int) ≤ 2 ^ bits := by positivity
  have high : (2 : Int) ^ bits ≤ 2 ^ 62 := pow_le_pow_right₀ (by decide) (by omega)
  rw [← Int64.toInt_toBitVec, Int64.toBitVec_shiftLeft, shiftCount_eq (by omega),
    BitVec.shiftLeft_eq', BitVec.toInt_shiftLeft, BitVec.toNat_ofNat,
    Nat.mod_eq_of_lt (show bits < 2 ^ 64 by omega), Nat.shiftLeft_eq, one, one_mul, Nat.cast_pow,
    Nat.cast_ofNat]
  exact Int.bmod_eq_of_le (by omega) (by omega)

/-- Rounding adds half a unit modulo the size of the word and then rounds down. -/
theorem roundShiftRight_wrapped (value : Int64) {bits : Nat} (positive : 1 ≤ bits)
    (inside : bits < 64) :
    (roundShiftRight value bits).toInt = (value.toInt + 2 ^ (bits - 1)).bmod (2 ^ 64) / 2 ^ bits := by
  -- The half is one shifted by one bit less, which is not the sign.
  rw [roundShiftRight, if_neg (by omega), toInt_shiftRight _ inside, Int64.toInt_add,
    toInt_one_shiftLeft (by omega)]

namespace Fixed

/-- A number held inside the word. -/
def heldInWord (value : Int) : Int := max (-2 ^ 63) (min value (2 ^ 63 - 1))

variable {fraction : Nat}

/-- The exact product of two numbers as a raw value, rounded down. -/
def exactProduct (left right : Fixed fraction) : Int :=
  left.raw.toInt * right.raw.toInt / 2 ^ fraction

/-- The nearest integer, a half rounded up, in numbers that have no end. -/
def nearest (number : Fixed fraction) : Int :=
  (number.raw.toInt + 2 ^ (fraction - 1)) / 2 ^ fraction

/-- The half that rounding adds does not fit above a number. -/
def Topped (number : Fixed fraction) : Prop := 2 ^ 63 ≤ number.raw.toInt + 2 ^ (fraction - 1)

instance (number : Fixed fraction) : Decidable number.Topped := inferInstanceAs (Decidable (_ ≤ _))

/-- A product is rounded down and held inside the word. -/
theorem mul_raw (left right : Fixed fraction) :
    (left * right).raw.toInt = heldInWord (exactProduct left right) := by
  have least : Int64.minValue.toInt = -2 ^ 63 := Int64.toInt_minValue
  have most : Int64.maxValue.toInt = 2 ^ 63 - 1 := Int64.toInt_maxValue
  -- The product is shifted in numbers that have no end before it is held.
  have whole : (left * right).raw = Int64.ofIntClamp (exactProduct left right) := by
    rw [exactProduct, ← Nat.cast_ofNat, ← Nat.cast_pow, ← Int.shiftRight_eq_div_pow]
    rfl
  rw [whole, heldInWord, Int64.ofIntClamp]
  -- Either the product fits, or it is held at the end that it passes.
  split
  · split
    · rw [Int64.toInt_ofIntLE]
      omega
    · omega
  · omega

/-- Half of a unit and another half are the unit. -/
theorem half_add_half (positive : 1 ≤ fraction) :
    (2 : Int) ^ (fraction - 1) + 2 ^ (fraction - 1) = 2 ^ fraction := by
  rw [← two_mul, ← pow_succ', Nat.sub_add_cancel positive]

/-- Half of a unit has room below the end of the word. -/
theorem half_le (fits : fraction ≤ 62) : (2 : Int) ^ (fraction - 1) ≤ 2 ^ 61 :=
  pow_le_pow_right₀ (by decide) (by omega)

/-- The integers of a format take the bits that its fraction leaves. -/
theorem integers_mul_unit {bits : Nat} (fits : fraction ≤ bits) :
    (2 : Int) ^ (bits - fraction) * 2 ^ fraction = 2 ^ bits := by
  rw [← pow_add, Nat.sub_add_cancel fits]

/-- Where the half fits, a number reads back as the nearest integer. -/
theorem rounded_eq_nearest {number : Fixed fraction} (positive : 1 ≤ fraction)
    (fits : fraction ≤ 62) (room : ¬number.Topped) : number.rounded.toInt = number.nearest := by
  -- The sum stays inside the word, so that taking it modulo the size of the word leaves it.
  have low := number.raw.le_toInt
  have half := half_le fits
  have some : (0 : Int) ≤ 2 ^ (fraction - 1) := by positivity
  rw [Topped, Int.not_le] at room
  rw [rounded, roundShiftRight_wrapped _ positive (by omega), nearest,
    Int.bmod_eq_of_le (by omega) (by omega)]

/-- All numbers that have no room for the half have one nearest integer, the first that a word cannot
hold as a raw value. -/
theorem Topped.nearest_eq {number : Fixed fraction} (positive : 1 ≤ fraction)
    (fits : fraction ≤ 62) (topped : number.Topped) : number.nearest = 2 ^ (63 - fraction) := by
  have high := number.raw.toInt_lt
  have unit := half_add_half positive
  have some : (0 : Int) < 2 ^ (fraction - 1) := by positivity
  have whole : (2 : Int) ^ (63 - fraction) * 2 ^ fraction = 2 ^ 63 := integers_mul_unit (by omega)
  rw [Topped] at topped
  -- With the half a raw value lies at the end of the word or less than half a unit above it.
  rw [nearest, Int.ediv_eq_iff_of_pos (by positivity)]
  constructor
  · omega
  · omega

/-- A number that has no room for the half reads back as the least integer that any number reads as. -/
theorem Topped.rounded_eq {number : Fixed fraction} (positive : 1 ≤ fraction)
    (fits : fraction ≤ 62) (topped : number.Topped) :
    number.rounded.toInt = -2 ^ (63 - fraction) := by
  have high := number.raw.toInt_lt
  have half := half_le fits
  have unit := half_add_half positive
  have some : (0 : Int) < 2 ^ (fraction - 1) := by positivity
  have whole : (2 : Int) ^ (63 - fraction) * 2 ^ fraction = 2 ^ 63 := integers_mul_unit (by omega)
  rw [Topped] at topped
  -- The sum passes the end of the word once, and comes out as far above its other end.
  have turned : (number.raw.toInt + 2 ^ (fraction - 1)).bmod (2 ^ 64) =
      number.raw.toInt + 2 ^ (fraction - 1) - 2 ^ 64 := by
    rw [← Int.sub_bmod_right]
    exact Int.bmod_eq_of_le (by omega) (by omega)
  rw [rounded, roundShiftRight_wrapped _ positive (by omega), turned,
    Int.ediv_eq_iff_of_pos (by positivity), neg_mul]
  constructor
  · omega
  · omega

/-- A product that is held at the upper end of the word has no room for the half. -/
theorem topped_of_saturated {left right : Fixed fraction}
    (saturated : 2 ^ 63 - 1 ≤ exactProduct left right) : (left * right).Topped := by
  have some : (0 : Int) < 2 ^ (fraction - 1) := by positivity
  -- The end of the word itself has no room for any half.
  rw [Topped, mul_raw, heldInWord]
  omega

/-- The nearest integer of a greater number is not less. -/
theorem nearest_mono {lesser greater : Fixed fraction} (ordered : lesser.raw ≤ greater.raw) :
    lesser.nearest ≤ greater.nearest := by
  -- The half is added to both, and the unit divides both.
  have order := Int64.le_iff_toInt_le.mp ordered
  exact Int.ediv_le_ediv (by positivity) (by omega)

/--
A product is the exact one, rounded down and held inside the word. A number reads back as the nearest
integer, a half rounded up, just when the half fits above it, and among such numbers a greater one reads
back as no less. The numbers above them all have one and the same nearest integer, and read back as its
opposite, which is negative; every product that is held at the upper end is one of them.
-/
theorem mul_rounded (positive : 1 ≤ fraction) (fits : fraction ≤ 62) :
    (∀ left right : Fixed fraction,
        (left * right).raw.toInt = heldInWord (exactProduct left right)) ∧
      (∀ number : Fixed fraction, number.rounded.toInt = number.nearest ↔ ¬number.Topped) ∧
      (∀ lesser greater : Fixed fraction, lesser.raw ≤ greater.raw → ¬greater.Topped →
        lesser.rounded ≤ greater.rounded) ∧
      (∀ number : Fixed fraction, number.Topped →
        number.nearest = 2 ^ (63 - fraction) ∧ number.rounded.toInt = -2 ^ (63 - fraction)) ∧
      ∀ left right : Fixed fraction, 2 ^ 63 - 1 ≤ exactProduct left right →
        (left * right).Topped := by
  refine ⟨mul_raw, fun number => ⟨fun same topped => ?_, rounded_eq_nearest positive fits⟩,
    fun lesser greater ordered room => ?_,
    fun number topped => ⟨topped.nearest_eq positive fits, topped.rounded_eq positive fits⟩,
    fun left right => topped_of_saturated⟩
  · -- A number without room reads back as the opposite of its nearest integer, which is not zero.
    have some : (0 : Int) < 2 ^ (63 - fraction) := by positivity
    rw [topped.nearest_eq positive fits, topped.rounded_eq positive fits] at same
    omega
  · -- Below a number with room for the half there are only numbers with room for it.
    have order := Int64.le_iff_toInt_le.mp ordered
    have below : ¬lesser.Topped := by
      rw [Topped] at room ⊢
      omega
    rw [Int64.le_iff_toInt_le, rounded_eq_nearest positive fits below,
      rounded_eq_nearest positive fits room]
    exact nearest_mono ordered

/-- A product of positive numbers that is held at the upper end reads back as a negative integer. -/
theorem mul_rounded_negative :
    let large : Fixed 15 := ⟨Int64.maxValue⟩
    ¬((large * large).rounded.toInt = (large * large).nearest) ∧
      (large * large).raw = Int64.maxValue ∧ (large * large).nearest = 281474976710656 ∧
      (large * large).rounded = -281474976710656 ∧
      ¬(∀ lesser greater : Fixed 15, lesser.raw ≤ greater.raw → lesser.rounded ≤ greater.rounded) := by
  refine ⟨by decide, by decide, by decide, by decide, fun monotone => ?_⟩
  exact absurd (monotone ⟨0⟩ ⟨Int64.maxValue⟩ (by decide)) (by decide)

/-- The last number with room for the half is below the first one without, and reads back above it. -/
theorem mul_rounded_last :
    let last : Fixed 14 := ⟨Int64.maxValue - 8192⟩
    let first : Fixed 14 := ⟨Int64.maxValue - 8191⟩
    (1 ≤ 14 ∧ 14 ≤ 62 ∧ (⟨0⟩ : Fixed 14).raw ≤ last.raw ∧ ¬last.Topped ∧ first.Topped ∧
        2 ^ 63 - 1 ≤ exactProduct first first) ∧
      last.rounded.toInt = 562949953421311 ∧ last.rounded.toInt = last.nearest ∧
      (⟨0⟩ : Fixed 14).rounded ≤ last.rounded ∧ first.rounded.toInt = -2 ^ (63 - 14) ∧
      (first * first).Topped := by
  intro last first
  have room : ¬last.Topped := by decide
  have topped : first.Topped := by decide
  have saturated : 2 ^ 63 - 1 ≤ exactProduct first first := by decide
  have above : (⟨0⟩ : Fixed 14).raw ≤ last.raw := by decide
  obtain ⟨-, reads, monotone, opposite, held⟩ :=
    mul_rounded (show 1 ≤ 14 by decide) (show 14 ≤ 62 by decide)
  exact ⟨⟨by decide, by decide, above, room, topped, saturated⟩, by decide,
    (reads last).mpr room, monotone ⟨0⟩ last above room, (opposite first topped).2,
    held first first saturated⟩

end Fixed

end Mixdown
