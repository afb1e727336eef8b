import Mixdown.Proofs.Echo

/-! The integer filter is a difference equation on whole signals, rounded and held at every sample. -/

namespace Mixdown.Biquad

/-- Samples that are filtered at once, and the coefficients that they are filtered by. -/
structure Call where
  coefficients : Coefficients
  samples : List Int32

/-- Filters the samples of one call after the other, each from the state that the last one left. -/
def integerCalls : State → List Call → Except Fault (State × List Int32)
  | state, [] => .ok (state, [])
  | state, call :: calls => do
    let (middle, outputs) ← applyInteger call.coefficients state call.samples
    let (last, later) ← integerCalls middle calls
    pure (last, outputs ++ later)

/-- All samples of calls in order, each with the coefficients that it is filtered by. -/
def heard (calls : List Call) : List (Coefficients × Int32) :=
  calls.flatMap fun call => call.samples.map (call.coefficients, ·)

/-- What the integer filter does at one sample. -/
structure Turn where
  coefficients : Coefficients
  before : State
  sample : Int32
  after : State
  output : Int32

/-- The integer filter's turns from a state on, one for each sample. -/
def turns : State → List (Coefficients × Int32) → Except Fault (List Turn)
  | _, [] => .ok []
  | before, (coefficients, sample) :: items => do
    let (after, output) ← integerStep coefficients before sample
    let later ← turns after items
    pure (⟨coefficients, before, sample, after, output⟩ :: later)

/-- The sum that is rounded to the output. -/
def Turn.sum (turn : Turn) : Int := outputSum turn.coefficients turn.before turn.sample

/-- A number held between the least and the largest sample. -/
def clamped (value : Int) : Int := max (-2 ^ 31) (min value (2 ^ 31 - 1))

/-- A turn is exact when its words are those of unbounded integers, which stay within bounds. -/
structure Turn.Exact (turn : Turn) : Prop where
  fits : StepFits turn.coefficients turn.before turn.sample
  /-- Adding the half does not wrap. -/
  half : InWord (turn.sum + 2 ^ 13)
  output_eq : turn.output.toInt = clamped ((turn.sum + 2 ^ 13) / 2 ^ 14)
  s0_eq : turn.after.s0.toInt = turn.before.s1.toInt +
    (turn.coefficients.b.get 1).toInt * turn.sample.toInt +
      (turn.coefficients.a.get 0).toInt * turn.output.toInt
  s1_eq : turn.after.s1.toInt = (turn.coefficients.b.get 2).toInt * turn.sample.toInt +
    (turn.coefficients.a.get 1).toInt * turn.output.toInt
  calm : turn.after.Calm

/-- The value of a signal that is preceded by two samples of silence. -/
def afterSilence (samples : List Int32) (index : Nat) : Int :=
  (([0, 0] ++ samples)[index]?.getD 0).toInt

/-- The output of the difference equation, from a sample and the two inputs and outputs before it. -/
def difference (coefficients : Coefficients) (inputs outputs : List Int32) (n : Nat) : Int :=
  let x := afterSilence inputs
  let y := afterSilence outputs
  clamped ((coefficients.weigh (x (n + 2)) (x (n + 1)) (x n) (y (n + 1)) (y n) + 2 ^ 13) / 2 ^ 14)

/-- A clamped word is the number held between the ends. -/
theorem clampSample_toInt (value : Int64) : (clampSample value).toInt = clamped value.toInt := by
  -- A clamped word is one of the two ends, or the value itself between them.
  have least : Int32.minValue.toInt = -2 ^ 31 := Int32.toInt_minValue
  have most : Int32.maxValue.toInt = 2 ^ 31 - 1 := Int32.toInt_maxValue
  rw [clampSample, Int32.ofIntClamp, clamped]
  split
  · split
    · rw [Int32.toInt_ofIntLE]
      omega
    · omega
  · omega

/-- From a calm state every turn is exact. -/
theorem exact_of_calm {before : State} (calm : before.Calm) (coefficients : Coefficients)
    (sample : Int32) :
    Turn.Exact ⟨coefficients, before, sample, (integerNext coefficients before sample).1,
      (integerNext coefficients before sample).2⟩ := by
  obtain ⟨-, after⟩ := integerStep_eq calm coefficients sample
  have fits := stepFits_of_calm calm coefficients sample
  have product := abs_product_le (coefficients.b.get 0) sample
  have second := inWord_second coefficients sample (integerNext coefficients before sample).2
  -- The product and the calm word are both far from the ends of their words, and so is the sum.
  have small : |sample.toInt * (coefficients.b.get 0).toInt + before.s0.toInt| ≤ 2 ^ 62 := by
    have total := abs_add_le (sample.toInt * (coefficients.b.get 0).toInt) before.s0.toInt
    have held := calm.first
    rw [mul_comm] at product
    omega
  refine ⟨fits, ?_, ?_, ?_, ?_, after⟩
  · obtain ⟨low, high⟩ := abs_le.mp small
    exact ⟨by simp only [Turn.sum, outputSum]; omega, by simp only [Turn.sum, outputSum]; omega⟩
  · -- The rounded word fits with room to spare, so that only the ends of the samples cut it off.
    have whole := toInt_ofInt fits.sum
    simp only [Turn.sum, outputSum, integerNext, clampSample_toInt]
    rw [roundShiftRight_toInt (by rw [whole]; exact small), whole]
  · rw [integerNext_s0, toInt_ofInt fits.first]
  · rw [integerNext_s1, toInt_ofInt second]

/-- From a calm state the integer filter has a turn at every sample, and all of them are exact. -/
theorem exists_turns {state : State} (calm : state.Calm) (items : List (Coefficients × Int32)) :
    ∃ taken, turns state items = .ok taken ∧ (∀ turn ∈ taken, turn.Exact) ∧
      taken.map (fun turn => (turn.coefficients, turn.sample)) = items ∧
      feed (fun state item => integerNext item.1 state item.2) state items =
        ((taken.map Turn.after).getLast?.getD state, taken.map Turn.output) := by
  induction items generalizing state with
  | nil => exact ⟨[], rfl, by simp, rfl, rfl⟩
  | cons item items ih =>
    obtain ⟨coefficients, sample⟩ := item
    -- The step leaves a calm state, from which the other samples take their turns.
    obtain ⟨step, after⟩ := integerStep_eq calm coefficients sample
    obtain ⟨later, ran, exact, same, fed⟩ := ih after
    refine ⟨⟨coefficients, state, sample, (integerNext coefficients state sample).1,
        (integerNext coefficients state sample).2⟩ :: later,
      by simp only [turns, step, ok_bind, ran, pure_eq_ok], ?_, ?_, ?_⟩
    · exact List.forall_mem_cons.mpr ⟨exact_of_calm calm coefficients sample, exact⟩
    · rw [List.map_cons, same]
    · simp only [feed, fed, List.map_cons, List.getLast?_cons, Option.getD_some]

/-- Calls filter what is heard of them, sample by sample. -/
theorem integerCalls_eq {state : State} (calm : state.Calm) (calls : List Call) :
    integerCalls state calls =
      .ok (feed (fun state item => integerNext item.1 state item.2) state (heard calls)) := by
  -- A call leaves a calm state to the next one, so that all samples are one run.
  induction calls generalizing state with
  | nil => rfl
  | cons call calls ih =>
    obtain ⟨applied, after⟩ := applyInteger_eq calm call.coefficients call.samples
    simp only [integerCalls, applied, ok_bind, ih after, pure_eq_ok]
    rw [show heard (call :: calls) = call.samples.map (call.coefficients, ·) ++ heard calls from rfl,
      feed_append, feed_map]

section Turns

variable {state : State} {items : List (Coefficients × Int32)} {taken : List Turn} {n : Nat}
  {turn : Turn} {coefficients : Coefficients}

/-- The first turn meets the state that all of them start from. -/
theorem turns_before_zero (ran : turns state items = .ok taken) (here : taken[0]? = some turn) :
    turn.before = state := by
  -- The first turn is taken from the state that the run begins with.
  cases items with
  | nil =>
    obtain rfl := Except.ok.inj ran
    simp at here
  | cons item items =>
    obtain ⟨⟨after, output⟩, -, ran⟩ := bind_eq_ok.mp ran
    obtain ⟨later, -, ran⟩ := bind_eq_ok.mp ran
    obtain rfl := Except.ok.inj ran
    obtain rfl := Option.some.inj here
    rfl

/-- Every other turn meets the state that the one before it has left. -/
theorem turns_before_succ (ran : turns state items = .ok taken) (here : taken[n + 1]? = some turn) :
    ∃ earlier, taken[n]? = some earlier ∧ turn.before = earlier.after := by
  -- A turn begins with what the turn before it has left, as does the first one with the start.
  induction items generalizing state taken n with
  | nil =>
    obtain rfl := Except.ok.inj ran
    simp at here
  | cons item items ih =>
    obtain ⟨⟨after, output⟩, -, ran⟩ := bind_eq_ok.mp ran
    obtain ⟨later, rest, ran⟩ := bind_eq_ok.mp ran
    obtain rfl := Except.ok.inj ran
    rw [List.getElem?_cons_succ] at here
    cases n with
    | zero => exact ⟨_, rfl, turns_before_zero rest here⟩
    | succ n =>
      obtain ⟨earlier, there, same⟩ := ih rest here
      exact ⟨earlier, there, same⟩

/-- The coefficients have been the same at a sample and at the two before it. -/
def Steady (items : List (Coefficients × Int32)) (coefficients : Coefficients) (n : Nat) : Prop :=
  ∀ m item, m ≤ n → n ≤ m + 2 → items[m]? = some item → item.1 = coefficients

/-- The second word that a turn meets carries the sample and the output just before it. -/
theorem s1_before (silent : state.Silent) (ran : turns state items = .ok taken)
    (exact : ∀ turn ∈ taken, turn.Exact)
    (steady : ∀ earlier, 0 < n → taken[n - 1]? = some earlier → earlier.coefficients = coefficients)
    (here : taken[n]? = some turn) :
    turn.before.s1.toInt =
      (coefficients.b.get 2).toInt * afterSilence (taken.map Turn.sample) (n + 1) +
        (coefficients.a.get 1).toInt * afterSilence (taken.map Turn.output) (n + 1) := by
  -- The second word was set by the turn before, which had the same coefficients.
  cases n with
  | zero =>
    rw [turns_before_zero ran here, silent.2]
    simp [afterSilence]
  | succ n =>
    obtain ⟨earlier, there, same⟩ := turns_before_succ ran here
    obtain rfl := steady earlier n.succ_pos there
    rw [same, (exact earlier (List.mem_of_getElem? there)).s1_eq]
    simp [afterSilence, there]

/-- The first word that a turn meets carries the samples and the outputs of the two before it. -/
theorem s0_before (silent : state.Silent) (ran : turns state items = .ok taken)
    (exact : ∀ turn ∈ taken, turn.Exact)
    (steady : ∀ m earlier, m < n → n ≤ m + 2 → taken[m]? = some earlier →
      earlier.coefficients = coefficients)
    (here : taken[n]? = some turn) :
    turn.before.s0.toInt =
      (coefficients.b.get 1).toInt * afterSilence (taken.map Turn.sample) (n + 1) +
        (coefficients.b.get 2).toInt * afterSilence (taken.map Turn.sample) n +
        (coefficients.a.get 0).toInt * afterSilence (taken.map Turn.output) (n + 1) +
        (coefficients.a.get 1).toInt * afterSilence (taken.map Turn.output) n := by
  cases n with
  | zero =>
    rw [turns_before_zero ran here, silent.1]
    simp [afterSilence]
  | succ n =>
    obtain ⟨earlier, there, same⟩ := turns_before_succ ran here
    -- The second word, which the turn before has met, moves up to the first.
    have near (first : Turn) (positive : 0 < n) (found : taken[n - 1]? = some first) :
        first.coefficients = coefficients :=
      steady (n - 1) first (by omega) (by omega) found
    have second := s1_before silent ran exact near there
    obtain rfl := steady n earlier (by omega) (by omega) there
    rw [same, (exact earlier (List.mem_of_getElem? there)).s0_eq, second]
    simp [afterSilence, there]
    omega

/-- Along exact turns from silence the outputs solve the difference equation. -/
theorem output_eq_difference (silent : state.Silent) (ran : turns state items = .ok taken)
    (exact : ∀ turn ∈ taken, turn.Exact)
    (same : taken.map (fun turn => (turn.coefficients, turn.sample)) = items)
    (inside : n < items.length) (steady : Steady items coefficients n) :
    afterSilence (taken.map Turn.output) (n + 2) =
      difference coefficients (taken.map Turn.sample) (taken.map Turn.output) n := by
  have within : n < taken.length := by rwa [← same, List.length_map] at inside
  have here := List.getElem?_eq_getElem within
  generalize taken[n] = turn at here
  -- What holds of the items holds of the turns that were taken at them.
  have alike (m : Nat) (earlier : Turn) (late : m ≤ n) (near : n ≤ m + 2)
      (found : taken[m]? = some earlier) : earlier.coefficients = coefficients :=
    steady m (earlier.coefficients, earlier.sample) late near (by simp [← same, found])
  have first := s0_before silent ran exact
    (fun m earlier before near => alike m earlier (by omega) near) here
  have own := alike n turn (by omega) (by omega) here
  have output := (exact turn (List.mem_of_getElem? here)).output_eq
  rw [Turn.sum, outputSum, first, own] at output
  rw [difference, Coefficients.weigh]
  simp only [afterSilence, List.cons_append, List.nil_append, List.getElem?_cons_succ,
    List.getElem?_map, here, Option.map_some, Option.getD_some] at output ⊢
  rw [output, mul_comm]
  congr 2
  omega

end Turns

/--
Calls of the integer filter on a state that starts silent never fault. At every sample the sums are
those of unbounded integers and the words of the state stay within their bounds. While the
coefficients stay the same the outputs solve a difference equation, and neither they nor the last
state depend on how the samples are divided among the calls.
-/
theorem integerCalls_recurrence {state : State} (silent : state.Silent) (calls : List Call) :
    ∃ taken last outputs, turns state (heard calls) = .ok taken ∧
      integerCalls state calls = .ok (last, outputs) ∧
      last = (taken.map Turn.after).getLast?.getD state ∧ outputs = taken.map Turn.output ∧
      taken.map (fun turn => (turn.coefficients, turn.sample)) = heard calls ∧
      (∀ turn ∈ taken, turn.Exact) ∧
      (∀ n coefficients, n < (heard calls).length → Steady (heard calls) coefficients n →
        afterSilence outputs (n + 2) =
          difference coefficients (calls.flatMap Call.samples) outputs n) ∧
      ∀ others, heard others = heard calls → integerCalls state others = integerCalls state calls := by
  obtain ⟨taken, ran, exact, same, fed⟩ := exists_turns silent.calm (heard calls)
  -- The turns name every sample that was heard with its coefficients, in order.
  have samples : taken.map Turn.sample = calls.flatMap Call.samples := by
    have seconds := congrArg (List.map Prod.snd) same
    simpa [heard, List.map_flatMap, Function.comp_def] using seconds
  refine ⟨taken, _, _, ran, (integerCalls_eq silent.calm calls).trans (by rw [fed]), rfl, rfl, same,
    exact, ?_, ?_⟩
  · intro n coefficients inside steady
    rw [← samples]
    exact output_eq_difference silent ran exact same inside steady
  · -- Two ways to split the same samples into calls are one run.
    intro others alike
    rw [integerCalls_eq silent.calm others, integerCalls_eq silent.calm calls, alike]

/-- An unstable filter hears a loud sample twice, in two calls, and its second output is cut off. -/
theorem integerCalls_recurrence_unstable :
    let coefficients : Coefficients := ⟨#v[16384, 8192, -4096], #v[32767, -16384]⟩
    let calls : List Call := [⟨coefficients, [5, 2147483647]⟩, ⟨coefficients, [2147483647]⟩]
    State.initial.Silent ∧ Steady (heard calls) coefficients 2 ∧
      ∃ last outputs, integerCalls .initial calls = .ok (last, outputs) ∧
        afterSilence outputs 4 = difference coefficients [5, 2147483647, 2147483647] outputs 2 ∧
        outputs = [5, 2147483647, 2147483647] := by
  intro coefficients calls
  -- Both calls have the same coefficients.
  have steady : Steady (heard calls) coefficients 2 := by
    intro m item _ _ found
    have listed : item ∈ heard calls := List.mem_of_getElem? found
    simp only [heard, calls, List.flatMap_cons, List.flatMap_nil, List.map_cons, List.map_nil,
      List.cons_append, List.nil_append, List.mem_cons, List.not_mem_nil, or_false] at listed
    obtain rfl | rfl | rfl := listed <;> rfl
  obtain ⟨taken, last, outputs, -, ran, -, -, -, -, solves, -⟩ :=
    integerCalls_recurrence silent_initial calls
  have found : (integerCalls .initial calls).toOption.map Prod.snd =
      some [5, 2147483647, 2147483647] := by decide +kernel
  rw [ran] at found
  exact ⟨silent_initial, steady, last, outputs, ran, solves 2 coefficients (by decide) steady,
    Option.some.inj found⟩

end Mixdown.Biquad
