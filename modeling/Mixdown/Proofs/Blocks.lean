import Mathlib.Data.List.Forall2
import Mixdown.Proofs.Biquad
import Mixdown.Proofs.Compressor
import Mixdown.Proofs.Limiter

/-! Filters and effects over a block of samples are their runs over its two parts, one after the other. -/

namespace Mixdown

namespace Biquad

/-- A filter may be run over the front of its samples and go on with the back from where it got to. -/
def Splits (filter : State → List Int32 → Except Fault (State × List Int32)) : Prop :=
  ∀ state front back, filter state (front ++ back) = do
    let (middle, outputs) ← filter state front
    let (last, later) ← filter middle back
    pure (last, outputs ++ later)

/-- A run of steps splits, and faults in the front when the front alone does. -/
theorem run_append (step : State → Int32 → Except Fault (State × Int32)) : Splits (run step) := by
  -- The second part begins with the state that the first one leaves, or is not reached after a
  -- fault.
  intro state front back
  induction front generalizing state with
  | nil =>
    simp only [List.nil_append, run_nil, ok_bind]
    cases run step state back <;> rfl
  | cons sample front ih =>
    simp only [List.cons_append, run_cons, ih, bind_assoc, pure_bind]

/-- Filters in double precision split, as the words they clear are clear from then on. -/
theorem applyDouble_append (b : Vector Double 3) (a : Vector Double 2) :
    Splits (applyDouble b a) := by
  intro state front back
  have trimmed := (applyDouble_eq b a state front).2
  rw [applyDouble, run_append]
  -- The front leaves the unused words clear, so that clearing them again changes nothing.
  refine (congrArg (· >>= _) (applyDouble_eq b a state front).1).trans ?_
  rw [(applyDouble_eq b a state front).1]
  simp only [ok_bind, applyDouble]
  rw [show { (feed (floatStep b a) state.trim front).1 with s2 := 0, s3 := 0 } =
    (feed (floatStep b a) state.trim front).1 from trimmed]

end Biquad

/-- The first samples of a segment. -/
def Segment.front (count : Nat) (segment : Segment) : Segment :=
  ⟨segment.start, segment.start + count⟩

/-- The samples of a segment behind the first ones. -/
def Segment.behind (count : Nat) (segment : Segment) : Segment :=
  ⟨segment.start + count, segment.stop⟩

/-- A route between the first samples of its segments. -/
def Route.front (count : Nat) (route : Route) : Route :=
  ⟨route.input.front count, route.output.front count⟩

/-- A route between the samples of its segments behind the first ones. -/
def Route.behind (count : Nat) (route : Route) : Route :=
  ⟨route.input.behind count, route.output.behind count⟩

/-- An effect may be run over the first samples of all segments and go on with the samples behind. -/
def SplitsBlocks
    (apply : List Route → Nat → σ → Array Int32 → Except Fault (σ × Array Int32)) : Prop :=
  ∀ routes count rest state samples, apply routes (count + rest) state samples = do
    let (state, samples) ← apply (routes.map (Route.front count)) count state samples
    apply (routes.map (Route.behind count)) rest state samples

section Instants

variable (step : Nat → σ → Array Int32 → Except Fault (σ × Array Int32))

/-- Instants may be counted in two parts. -/
theorem overInstants_add (count rest instant : Nat) (state : σ) (samples : Array Int32) :
    overInstants step (count + rest) instant state samples = (do
      let (state, samples) ← overInstants step count instant state samples
      overInstants step rest (instant + count) state samples) := by
  -- The loop over all instants is that over the first ones, and then over the others with their
  -- offset.
  induction count generalizing instant state samples with
  | zero => simp [overInstants]
  | succ count ih =>
    simp only [Nat.succ_add, overInstants, bind_assoc]
    refine bind_congr fun taken => ?_
    rw [ih, Nat.add_assoc, Nat.add_comm 1]

/-- Instants may be counted from a later one on by a step that starts later. -/
theorem overInstants_later {later : Nat → σ → Array Int32 → Except Fault (σ × Array Int32)}
    {offset : Nat}
    (same : ∀ instant state samples, later instant state samples = step (offset + instant) state samples)
    (count instant : Nat) (state : σ) (samples : Array Int32) :
    overInstants later count instant state samples =
      overInstants step count (offset + instant) state samples := by
  -- The loop only moves the instants at which its step is made.
  induction count generalizing instant state samples with
  | zero => rfl
  | succ count ih =>
    simp only [overInstants, same]
    exact bind_congr fun taken => ih (instant + 1) taken.1 taken.2

end Instants

/-- Routes whose segments start a number of samples behind those of other routes. -/
def Delayed (offset : Nat) (routes delayed : List Route) : Prop :=
  List.Forall₂ (fun route later => later.input.start = route.input.start + offset ∧
    later.output.start = route.output.start + offset) routes delayed

/-- The fronts of routes start where the routes do. -/
theorem delayed_front (routes : List Route) (count : Nat) :
    Delayed 0 routes (routes.map (Route.front count)) := by
  induction routes with
  | nil => exact .nil
  | cons route routes ih => exact .cons ⟨rfl, rfl⟩ ih

/-- What lies behind the fronts starts as much later as the fronts are long. -/
theorem delayed_behind (routes : List Route) (count : Nat) :
    Delayed count routes (routes.map (Route.behind count)) := by
  induction routes with
  | nil => exact .nil
  | cons route routes ih => exact .cons ⟨rfl, rfl⟩ ih

variable {routes others : List Route} {offset : Nat}

namespace Limiter

/-- Peaks along later routes are those of later instants. -/
theorem detect_delayed (delayed : Delayed offset routes others) (samples : Array Int32)
    (instant channel : Nat) (peaks : Vector Single maxChannels) (peak : Single) :
    detect samples instant channel others peaks peak =
      detect samples (offset + instant) channel routes peaks peak := by
  induction delayed generalizing channel peaks peak with
  | nil => rfl
  | cons starts _ ih => simp only [detect, starts.1, ih, Nat.add_assoc]

/-- Samples along later routes are scaled as at later instants. -/
theorem scale_delayed (delayed : Delayed offset routes others) (gain makeup : Single)
    (instant : Nat) (samples : Array Int32) :
    scale gain makeup instant others samples =
      scale gain makeup (offset + instant) routes samples := by
  induction delayed generalizing samples with
  | nil => rfl
  | cons starts _ ih => simp only [scale, starts.1, starts.2, ih, Nat.add_assoc]

/-- A run along later routes starts at a later instant. -/
theorem apply_delayed (delayed : Delayed offset routes others) (parameters : Parameters)
    (rate count : Nat) (state : State) (samples : Array Int32) :
    apply parameters rate others count state samples =
      overInstants (step (parameters.settings rate) routes) count offset state samples := by
  refine overInstants_later _ (fun instant state samples => ?_) count 0 state samples
  simp only [step, detect_delayed delayed, scale_delayed delayed]

/-- A limiter splits, whatever its routes are. -/
-- Without channels both ways leave the samples, and otherwise the instants are run in two parts.
theorem apply_split (parameters : Parameters) (rate : Nat) :
    SplitsBlocks (apply parameters rate) := by
  intro routes count rest state samples
  rw [apply, overInstants_add, apply_delayed (delayed_front routes count), Nat.zero_add]
  exact bind_congr fun taken =>
    (apply_delayed (delayed_behind routes count) parameters rate rest taken.1 taken.2).symm

end Limiter

namespace Compressor

/-- Energies along later routes are those of later instants. -/
theorem energy_delayed (delayed : Delayed offset routes others) (samples : Array Int32)
    (instant : Nat) (sum : Single) :
    energy samples instant others sum = energy samples (offset + instant) routes sum := by
  induction delayed generalizing sum with
  | nil => rfl
  | cons starts _ ih => simp only [energy, starts.1, ih, Nat.add_assoc]

/-- Samples along later routes are scaled and noted as at later instants. -/
theorem scale_delayed (delayed : Delayed offset routes others) (gain : Single) (noting : Bool)
    (instant channel : Nat) (noted : Vector Single maxChannels) (samples : Array Int32) :
    scale gain noting instant channel others noted samples =
      scale gain noting (offset + instant) channel routes noted samples := by
  induction delayed generalizing channel noted samples with
  | nil => rfl
  | cons starts _ ih => simp only [scale, starts.1, starts.2, ih, Nat.add_assoc]

/-- A run along later routes starts at a later instant, if the statistics are not started anew. -/
theorem apply_delayed (delayed : Delayed offset routes others) {parameters : Parameters}
    (keeps : parameters.statistics = 0 ∨ parameters.statisticsReset = 0) (count : Nat)
    (state : State) (samples : Array Int32) :
    apply parameters others count state samples =
      if routes.isEmpty then .ok (state, samples)
      else overInstants (step parameters routes) count offset state samples := by
  have empty : others.isEmpty = routes.isEmpty := by cases delayed <;> rfl
  -- The one step at the start of a run that a part would make again is the reset of the statistics.
  have going : ¬(parameters.statistics ≠ 0 ∧ parameters.statisticsReset ≠ 0) := by
    rw [not_and_or, not_not, not_not]
    exact keeps
  simp only [apply, empty, going, if_false]
  split
  · rfl
  · refine overInstants_later _ (fun instant state samples => ?_) count 0 state samples
    simp only [step, energy_delayed delayed, scale_delayed delayed, delayed.length_eq]

/-- A compressor splits, whatever its routes are, unless it starts its statistics anew. -/
theorem apply_split {parameters : Parameters}
    (keeps : parameters.statistics = 0 ∨ parameters.statisticsReset = 0) :
    SplitsBlocks (apply parameters) := by
  intro routes count rest state samples
  -- Both ways are put as runs over the same routes, the whole one as delayed by nothing.
  have whole : Delayed 0 routes routes := by
    induction routes with
    | nil => exact .nil
    | cons route routes ih => exact .cons ⟨rfl, rfl⟩ ih
  simp only [apply_delayed whole keeps, apply_delayed (delayed_front routes count) keeps,
    apply_delayed (delayed_behind routes count) keeps]
  split
  · rfl
  · rw [overInstants_add, Nat.zero_add]

end Compressor

/--
The three filters, the limiter, and the compressor while it does not start its statistics anew may
be run over the two parts of a block instead of the whole, with the same samples, states and faults.
-/
theorem kernels_split :
    (∀ coefficients, Biquad.Splits (Biquad.applyInteger coefficients)) ∧
      (∀ coefficients, Biquad.Splits (Biquad.applyWidened coefficients)) ∧
      (∀ filter, Biquad.Splits (Biquad.applyFloat filter)) ∧
      (∀ parameters rate, SplitsBlocks (Limiter.apply parameters rate)) ∧
      ∀ parameters : Compressor.Parameters,
        parameters.statistics = 0 ∨ parameters.statisticsReset = 0 →
          SplitsBlocks (Compressor.apply parameters) :=
  ⟨fun _ => Biquad.run_append _, fun _ => Biquad.applyDouble_append _ _,
    fun _ => Biquad.applyDouble_append _ _, Limiter.apply_split, fun _ => Compressor.apply_split⟩

/-- A compressor that gathers statistics hears one sample of a buffer, and then the two behind it. -/
theorem kernels_split_gathering :
    let parameters : Compressor.Parameters := { Compressor.Parameters.zero with statistics := 1 }
    let samples : Array Int32 := #[100, -200, 300, 0, 0, 0]
    (parameters.statistics = 0 ∨ parameters.statisticsReset = 0) ∧
      Compressor.apply parameters [⟨⟨0, 3⟩, ⟨3, 6⟩⟩] 3 .zero samples = (do
        let (state, samples) ← Compressor.apply parameters [⟨⟨0, 1⟩, ⟨3, 4⟩⟩] 1 .zero samples
        Compressor.apply parameters [⟨⟨1, 3⟩, ⟨4, 6⟩⟩] 2 state samples) := by
  intro parameters samples
  have keeps : parameters.statistics = 0 ∨ parameters.statisticsReset = 0 := .inr rfl
  exact ⟨keeps, kernels_split.2.2.2.2 parameters keeps [⟨⟨0, 3⟩, ⟨3, 6⟩⟩] 1 2 .zero samples⟩

end Mixdown
