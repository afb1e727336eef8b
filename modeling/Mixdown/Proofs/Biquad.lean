import Mathlib.Algebra.Order.Ring.Abs
import Mathlib.Algebra.Order.Ring.Int
import Mixdown.Biquad
import Mixdown.Proofs.Stream

/-! The filters run without faults, and the integer filter's state stays within fixed bounds. -/

namespace Mixdown.Biquad

/-- A state that integer filters leave behind, far from the ends of its words. -/
structure State.Calm (state : State) : Prop where
  first : |state.s0.toInt| ≤ 2 ^ 48
  second : |state.s1.toInt| ≤ 2 ^ 47

/-- What the integer filter does with a sample when no sum leaves its word. -/
def integerNext (coefficients : Coefficients) (state : State) (sample : Int32) : State × Int32 :=
  let { b, a } := coefficients
  let x := sample.toInt
  let sum := x * (b.get 0).toInt + state.s0.toInt
  let output := clampSample (roundShiftRight (Int64.ofInt sum) 14)
  let y := output.toInt
  ({ state with
      s0 := Int64.ofInt (state.s1.toInt + (b.get 1).toInt * x + (a.get 0).toInt * y)
      s1 := Int64.ofInt ((b.get 2).toInt * x + (a.get 1).toInt * y) }, output)

/-- The sum that the integer filter rounds to its output. -/
def outputSum (coefficients : Coefficients) (state : State) (sample : Int32) : Int :=
  sample.toInt * (coefficients.b.get 0).toInt + state.s0.toInt

/-- The sum of an input, the two inputs before it and the two outputs before it, each taken by its
coefficient. -/
def Coefficients.weigh (coefficients : Coefficients) (x₀ x₁ x₂ y₁ y₂ : Int) : Int :=
  (coefficients.b.get 0).toInt * x₀ + (coefficients.b.get 1).toInt * x₁ +
    (coefficients.b.get 2).toInt * x₂ + (coefficients.a.get 0).toInt * y₁ +
    (coefficients.a.get 1).toInt * y₂

/-- The first word goes on from the second one and from both samples. -/
theorem integerNext_s0 (coefficients : Coefficients) (state : State) (sample : Int32) :
    (integerNext coefficients state sample).1.s0 =
      Int64.ofInt (state.s1.toInt + (coefficients.b.get 1).toInt * sample.toInt +
        (coefficients.a.get 0).toInt * (integerNext coefficients state sample).2.toInt) := by
  simp only [integerNext]

/-- The second word is made from the two samples alone. -/
theorem integerNext_s1 (coefficients : Coefficients) (state : State) (sample : Int32) :
    (integerNext coefficients state sample).1.s1 =
      Int64.ofInt ((coefficients.b.get 2).toInt * sample.toInt +
        (coefficients.a.get 1).toInt * (integerNext coefficients state sample).2.toInt) := by
  simp only [integerNext]

/-- A number that a word holds. -/
def InWord (value : Int) : Prop := -2 ^ 63 ≤ value ∧ value < 2 ^ 63

/-- A number of small magnitude is held by a word. -/
theorem inWord_of_abs_lt {value : Int} (small : |value| < 2 ^ 63) : InWord value := by
  have bounds := abs_lt.mp small
  exact ⟨by omega, by omega⟩

/-- What a word holds is checked without a fault. -/
theorem checkedWord_of_inWord {value : Int} (inside : InWord value) :
    checkedWord value = .ok (Int64.ofInt value) := by
  obtain ⟨low, high⟩ := inside
  simp only [checkedWord, Int64.toInt_minValue, Int64.toInt_maxValue]
  rw [if_pos ⟨by omega, by omega⟩]

/-- What no word holds is an overflow. -/
theorem checkedWord_of_not_inWord {value : Int} (outside : ¬InWord value) :
    checkedWord value = .error .overflow := by
  simp only [checkedWord, Int64.toInt_minValue, Int64.toInt_maxValue]
  rw [if_neg]
  rintro ⟨low, high⟩
  exact outside ⟨by omega, by omega⟩

/-- A word read back is the number it was made of. -/
theorem toInt_ofInt {value : Int} (inside : InWord value) : (Int64.ofInt value).toInt = value :=
  Int64.toInt_ofInt_of_le inside.1 inside.2

/-- A product of a coefficient and a sample. -/
theorem abs_product_le (coefficient : Int16) (sample : Int32) :
    |coefficient.toInt * sample.toInt| ≤ 2 ^ 46 := by
  -- A coefficient has fifteen bits beside its sign, and a sample has thirty-one.
  have left : |coefficient.toInt| ≤ 2 ^ 15 := by
    have low := coefficient.le_toInt
    have high := coefficient.toInt_lt
    exact abs_le.mpr ⟨by omega, by omega⟩
  have right : |sample.toInt| ≤ 2 ^ 31 := by
    have low := sample.le_toInt
    have high := sample.toInt_lt
    exact abs_le.mpr ⟨by omega, by omega⟩
  calc |coefficient.toInt * sample.toInt| = |coefficient.toInt| * |sample.toInt| := abs_mul ..
    _ ≤ 2 ^ 15 * 2 ^ 31 := mul_le_mul left right (abs_nonneg _) (by decide)
    _ = 2 ^ 46 := by decide

/-- The sums that the integer filter forms with its state at a sample are all held by words. -/
structure StepFits (coefficients : Coefficients) (state : State) (sample : Int32) : Prop where
  sum : InWord (sample.toInt * (coefficients.b.get 0).toInt + state.s0.toInt)
  carry : InWord (state.s1.toInt + (coefficients.b.get 1).toInt * sample.toInt)
  first : InWord (state.s1.toInt + (coefficients.b.get 1).toInt * sample.toInt +
    (coefficients.a.get 0).toInt * (integerNext coefficients state sample).2.toInt)

/-- The integer filter's checks, one for each of its sums. -/
theorem integerStep_eq_checks (coefficients : Coefficients) (state : State) (sample : Int32) :
    integerStep coefficients state sample = (do
      let sum ← checkedWord (sample.toInt * (coefficients.b.get 0).toInt + state.s0.toInt)
      let output := clampSample (roundShiftRight sum 14)
      let carry ← checkedWord (state.s1.toInt + (coefficients.b.get 1).toInt * sample.toInt)
      let s0 ← checkedWord (carry.toInt + (coefficients.a.get 0).toInt * output.toInt)
      let s1 ← checkedWord ((coefficients.b.get 2).toInt * sample.toInt +
        (coefficients.a.get 1).toInt * output.toInt)
      pure ({ state with s0, s1 }, output)) := rfl

/-- A sum that starts from two products alone is far from the ends of its word. -/
theorem abs_second_le (coefficients : Coefficients) (sample output : Int32) :
    |(coefficients.b.get 2).toInt * sample.toInt + (coefficients.a.get 1).toInt * output.toInt| ≤
      2 ^ 47 := by
  -- Two products take one bit more than each of them.
  have product := abs_product_le (coefficients.b.get 2) sample
  have feedback := abs_product_le (coefficients.a.get 1) output
  have total := abs_add_le ((coefficients.b.get 2).toInt * sample.toInt)
    ((coefficients.a.get 1).toInt * output.toInt)
  omega

section Step

variable {coefficients : Coefficients} {state : State} {sample : Int32}

/-- The last of the four sums fits whatever the state is. -/
theorem inWord_second (coefficients : Coefficients) (sample output : Int32) :
    InWord ((coefficients.b.get 2).toInt * sample.toInt +
      (coefficients.a.get 1).toInt * output.toInt) :=
  inWord_of_abs_lt (lt_of_le_of_lt (abs_second_le coefficients sample output) (by decide))

/-- A step whose sums fit does not fault. -/
theorem integerStep_of_fits (fits : StepFits coefficients state sample) :
    integerStep coefficients state sample = .ok (integerNext coefficients state sample) := by
  obtain ⟨sum, carry, first⟩ := fits
  have second := inWord_second coefficients sample (integerNext coefficients state sample).2
  -- Each sum is formed from the words before it, which hold what was put into them.
  simp only [integerNext] at first second
  simp only [integerStep_eq_checks, integerNext, checkedWord_of_inWord sum, ok_bind,
    checkedWord_of_inWord carry, toInt_ofInt carry, checkedWord_of_inWord first,
    checkedWord_of_inWord second, pure_eq_ok]

/-- A step with a sum that does not fit overflows. -/
theorem integerStep_of_not_fits (beyond : ¬StepFits coefficients state sample) :
    integerStep coefficients state sample = .error .overflow := by
  rw [integerStep_eq_checks]
  by_cases sum : InWord (sample.toInt * (coefficients.b.get 0).toInt + state.s0.toInt)
  · by_cases carry : InWord (state.s1.toInt + (coefficients.b.get 1).toInt * sample.toInt)
    · -- Once the first two sums fit, it is the third that does not.
      have first : ¬InWord (state.s1.toInt + (coefficients.b.get 1).toInt * sample.toInt +
          (coefficients.a.get 0).toInt * (integerNext coefficients state sample).2.toInt) :=
        fun first => beyond ⟨sum, carry, first⟩
      simp only [integerNext] at first
      simp only [checkedWord_of_inWord sum, ok_bind, checkedWord_of_inWord carry, toInt_ofInt carry,
        checkedWord_of_not_inWord first, error_bind]
    · simp only [checkedWord_of_inWord sum, ok_bind, checkedWord_of_not_inWord carry, error_bind]
  · simp only [checkedWord_of_not_inWord sum, error_bind]

/-- The sum that becomes the first word stays within the bound of calm states. -/
theorem abs_first_le (calm : state.Calm) (coefficients : Coefficients) (sample output : Int32) :
    |state.s1.toInt + (coefficients.b.get 1).toInt * sample.toInt +
      (coefficients.a.get 0).toInt * output.toInt| ≤ 2 ^ 48 := by
  -- The output is a sample, so that each product stays below the forty-seventh power of two.
  have held := calm.second
  have product := abs_product_le (coefficients.b.get 1) sample
  have feedback := abs_product_le (coefficients.a.get 0) output
  have total := abs_add_le state.s1.toInt ((coefficients.b.get 1).toInt * sample.toInt)
  have whole := abs_add_le (state.s1.toInt + (coefficients.b.get 1).toInt * sample.toInt)
    ((coefficients.a.get 0).toInt * output.toInt)
  omega

/-- From a calm state no sum leaves its word. -/
theorem stepFits_of_calm (calm : state.Calm) (coefficients : Coefficients) (sample : Int32) :
    StepFits coefficients state sample where
  -- A product and a calm word are both far below half of the word.
  sum := by
    apply inWord_of_abs_lt
    have product := abs_product_le (coefficients.b.get 0) sample
    have total := abs_add_le ((coefficients.b.get 0).toInt * sample.toInt) state.s0.toInt
    have held := calm.first
    rw [mul_comm]
    omega
  carry := by
    apply inWord_of_abs_lt
    have product := abs_product_le (coefficients.b.get 1) sample
    have total := abs_add_le state.s1.toInt ((coefficients.b.get 1).toInt * sample.toInt)
    have held := calm.second
    omega
  first := inWord_of_abs_lt (lt_of_le_of_lt (abs_first_le calm coefficients sample _) (by decide))

/-- From a calm state no sum leaves its word, and the next state is calm again. -/
theorem integerStep_eq {state : State} (calm : state.Calm) (coefficients : Coefficients)
    (sample : Int32) :
    integerStep coefficients state sample = .ok (integerNext coefficients state sample) ∧
      (integerNext coefficients state sample).1.Calm := by
  -- The new words are sums of products, so that the state stays as calm as it was.
  have fits := stepFits_of_calm calm coefficients sample
  have second := inWord_second coefficients sample (integerNext coefficients state sample).2
  refine ⟨integerStep_of_fits fits, ⟨?_, ?_⟩⟩
  · rw [integerNext_s0, toInt_ofInt fits.first]
    exact abs_first_le calm coefficients sample _
  · rw [integerNext_s1, toInt_ofInt second]
    exact abs_second_le coefficients sample _

end Step

/-- The state of a filter that has heard nothing is calm. -/
theorem calm_initial : State.initial.Calm := ⟨by decide, by decide⟩

section Run

variable (step : State → Int32 → Except Fault (State × Int32)) (state : State)

/-- A run over no samples keeps its state. -/
@[simp] theorem run_nil : run step state [] = .ok (state, []) := rfl

/-- A run over samples takes one step and goes on with the state that it leaves. -/
theorem run_cons (sample : Int32) (samples : List Int32) :
    run step state (sample :: samples) = (do
      let (next, output) ← step state sample
      let (last, outputs) ← run step next samples
      pure (last, output :: outputs)) := by
  -- The outputs are collected in reverse, in front of those that were there before.
  have collected : ∀ (samples : List Int32) (state : State) (outputs : List Int32),
      samples.foldlM (fun (held : State × List Int32) sample => do
        let found ← step held.1 sample
        pure (found.1, found.2 :: held.2)) (state, outputs) = (do
          let (last, later) ← run step state samples
          pure (last, later.reverse ++ outputs)) := by
    intro samples
    induction samples with
    | nil => exact fun _ _ => rfl
    | cons sample samples ih =>
      intro state outputs
      simp only [run, List.foldlM_cons]
      cases taken : step state sample with
      | error fault => simp
      | ok found =>
        -- The induction serves twice, once in front of what was collected and once in front of one.
        simp only [ok_bind, pure_eq_ok] at ih ⊢
        rw [ih found.1 (found.2 :: outputs), ih found.1 [found.2]]
        cases run step found.1 samples with
        | error fault => rfl
        | ok rest => simp
  have rest := fun found : State × Int32 => collected samples found.1 [found.2]
  rw [run, List.foldlM_cons]
  simp only [pure_eq_ok] at rest ⊢
  cases step state sample with
  | error fault => rfl
  | ok found =>
    simp only [ok_bind, rest]
    cases run step found.1 samples with
    | error fault => rfl
    | ok last => simp

/-- A run gives one output for each of its samples. -/
theorem run_length {step : State → Int32 → Except Fault (State × Int32)} {state last : State}
    {samples outputs : List Int32} (ran : run step state samples = .ok (last, outputs)) :
    outputs.length = samples.length := by
  -- Each sample that is heard gives one that is output.
  induction samples generalizing state outputs with
  | nil =>
    obtain ⟨rfl, rfl⟩ := Prod.mk.inj (Except.ok.inj ran)
    rfl
  | cons sample samples ih =>
    rw [run_cons] at ran
    obtain ⟨⟨next, output⟩, -, ran⟩ := bind_eq_ok.mp ran
    obtain ⟨⟨final, later⟩, rest, ran⟩ := bind_eq_ok.mp ran
    obtain ⟨rfl, rfl⟩ := Prod.mk.inj (Except.ok.inj ran)
    rw [List.length_cons, List.length_cons, ih rest]

end Run

/-- A run of steps that never fault feeds the samples to their results. -/
theorem run_eq {step : State → Int32 → Except Fault (State × Int32)}
    {next : State → Int32 → State × Int32} (steady : State → Prop)
    (steps : ∀ state sample, steady state → step state sample = .ok (next state sample) ∧
      steady (next state sample).1)
    {state : State} (start : steady state) (samples : List Int32) :
    run step state samples = .ok (feed next state samples) ∧
      steady (feed next state samples).1 := by
  -- A steady state makes the step succeed, and the step leaves it steady for the next one.
  induction samples generalizing state with
  | nil => exact ⟨rfl, start⟩
  | cons sample samples ih =>
    obtain ⟨result, after⟩ := steps state sample start
    obtain ⟨results, last⟩ := ih after
    refine ⟨?_, last⟩
    simp only [run_cons, result, ok_bind, results, pure_eq_ok, feed]

/-- The integer filter never faults from a calm state. -/
theorem applyInteger_eq {state : State} (calm : state.Calm) (coefficients : Coefficients)
    (samples : List Int32) :
    applyInteger coefficients state samples =
        .ok (feed (integerNext coefficients) state samples) ∧
      (feed (integerNext coefficients) state samples).1.Calm :=
  run_eq State.Calm (fun _ sample calm => integerStep_eq calm coefficients sample) calm samples

/-- The state without the words that floating-point filters do not use. -/
def State.trim (state : State) : State := { state with s2 := 0, s3 := 0 }

/-- The floating-point filters never fault, and they leave the unused words as they find them. -/
theorem applyDouble_eq (b : Vector Double 3) (a : Vector Double 2) (state : State)
    (samples : List Int32) :
    applyDouble b a state samples = .ok (feed (floatStep b a) state.trim samples) ∧
      (feed (floatStep b a) state.trim samples).1.trim =
        (feed (floatStep b a) state.trim samples).1 := by
  refine run_eq (fun state => state.trim = state) (fun state sample trimmed => ⟨rfl, ?_⟩) rfl samples
  rw [← trimmed]
  rfl

end Mixdown.Biquad
