import Mathlib.Data.List.Induction
import Mixdown.InPlace
import Mixdown.Proofs.Loudness.Session

/-!
Calls write to a meter in place, field by field. One that is refused has written nothing, and a reset
leaves the meter as if it had just been set up anew.
-/

namespace Mixdown.Loudness

/-- A call on a meter in place. -/
abbrev Call := InPlace Meter Unit

namespace Call

open InPlace (on on_bind)

/-- Sets all that is measured back, and nothing of the set-up. -/
def reset : Call := do
  modify ({ · with channels := List.replicate maxChannels .silent })
  modify fun meter => { meter with momentaryRing := meter.momentaryRing.clear }
  modify fun meter => { meter with shortTermRing := meter.shortTermRing.clear }
  modify ({ · with seen := 0 })
  modify ({ · with total := 0 })
  modify ({ · with momentary := silence })
  modify ({ · with shortTerm := silence })
  modify ({ · with integrated := silence })

/-- Writes down parameters and all that follows from them, and sets the rest back. -/
def install (parameters : Parameters) : Call := do
  let rate := parameters.rate.toUInt64.toFloat
  modify ({ · with parameters })
  modify ({ · with shelf := .highShelf rate })
  modify ({ · with highPass := .highPass rate })
  modify ({ · with momentaryRing := .create parameters.rate })
  modify ({ · with shortTermRing := .create (3 * parameters.rate) })
  modify ({ · with ready := true })
  reset

/-- Installs parameters that pass the checks. -/
def setUp (parameters : Parameters) : Call :=
  if parameters.channels = 0 ∨ maxChannels < parameters.channels then
    throw (.channelCount parameters.channels)
  else if parameters.rate = 0 ∨ maxRate < parameters.rate then
    throw (.sampleRate parameters.rate)
  else install parameters

/-- Takes frames one by one. -/
def hear : List (List Single) → Call
  | [] => pure ()
  | frame :: frames => do
    modify (·.pushFrame frame)
    hear frames

/-- Takes frames of a width and then the readings, if there are enough samples. -/
def listen (width : Nat) (samples : List Single) (count : Nat) : Call :=
  if samples.length < count * width then throw (.shortBuffer (count * width) samples.length)
  else do
    hear (cut width count samples)
    modify settle

/-- Listens if the meter is set up. -/
def analyze (samples : List Single) (count : Nat) : Call := do
  let meter ← get
  if meter.ready then listen meter.parameters.channels samples count else pure ()

/-- Writes down the momentary window if the meter is set up. -/
def setMomentary (seconds : Single) : Call := do
  let meter ← get
  if meter.ready then
    modify ({ · with parameters := { meter.parameters with momentary := seconds } })
  else pure ()

/-- Marks the meter as not set up. -/
def finalize : Call := modify ({ · with ready := false })

variable (meter : Meter)

/-- A call that goes one of two ways ends as the way that it goes. -/
theorem on_ite (condition : Prop) [Decidable condition] (first second : Call) :
    on (if condition then first else second) meter =
      if condition then first.on meter else second.on meter := by
  split
  · rfl
  · rfl

/-- Frames are taken without a refusal, each by the meter that the last one has left. -/
theorem on_hear (frames : List (List Single)) :
    (hear frames).on meter = (.ok (), frames.foldl Meter.pushFrame meter) := by
  induction frames generalizing meter with
  | nil => rfl
  | cons frame frames ih => exact ih (meter.pushFrame frame)

/-- Enough samples are listened to as frames, and too few of them are not. -/
theorem on_listen (width : Nat) (samples : List Single) (count : Nat) :
    (listen width samples count).on meter =
      if samples.length < count * width then
        (.error (.shortBuffer (count * width) samples.length), meter)
      else (.ok (), settle ((cut width count samples).foldl Meter.pushFrame meter)) := by
  rw [listen, on_ite, on_bind (on_hear meter _)]
  rfl

end Call

/-- The call that an operation is, in place. -/
def Operation.call : Operation → Call
  | setUp parameters => .setUp parameters
  | analyze samples count => .analyze samples count
  | setMomentary seconds => .setMomentary seconds
  | reset => .reset
  | finalize => .finalize

/-- The end of a call that leaves a new meter, or is refused and leaves the one it was made on. -/
def ending (meter : Meter) : Except Error Meter → Except Error Unit × Meter
  | .ok next => (.ok (), next)
  | .error refusal => (.error refusal, meter)

/-- A call in place ends as the operation does, and leaves the meter untouched when it is refused. -/
theorem Operation.on_call (operation : Operation) (meter : Meter) :
    operation.call.on meter = ending meter (operation.apply meter) := by
  -- Each call refuses before its first change, or makes all of its changes; the two ways to say
  -- so meet operation by operation.
  cases operation with
  | setUp parameters =>
    simp only [call, Call.setUp, Call.on_ite, apply, Meter.setUp, apply_ite (ending meter)]
    rfl
  | analyze samples count =>
    simp only [call, Call.analyze, InPlace.on_get, Call.on_ite, Call.on_listen, apply]
    by_cases ready : meter.ready = true
    · rw [if_pos ready]
      -- A meter that is set up checks the samples, before it hears the first of them.
      by_cases short : samples.length < count * meter.parameters.channels
      · rw [analyze_short ready short, if_pos short]
        rfl
      · rw [analyze_eq ready samples count (Nat.not_lt.mp short), if_neg short]
        rfl
    · rw [analyze_idle ready, if_neg ready]
      rfl
  | setMomentary seconds =>
    simp only [call, Call.setMomentary, InPlace.on_get, Call.on_ite, apply, ending, Meter.setMomentary]
    split
    · rfl
    · rfl
  | reset => rfl
  | finalize => rfl

/-- The meter after some calls on a new one. -/
def calls (operations : List Operation) : Meter :=
  operations.foldl (fun meter operation => (operation.call.on meter).2) .create

/-- Calls leave the meter of the session that they make up. -/
theorem calls_eq (operations : List Operation) :
    calls operations = (Session.run operations).meter := by
  -- A call leaves the meter that the session goes on with, whether or not it was refused.
  have each (session : Session) (operation : Operation) :
      (operation.call.on session.meter).2 = (session.play operation).meter := by
    rw [Operation.on_call, Session.play]
    cases operation.apply session.meter with
    | error refusal => rfl
    | ok next => rfl
  exact @List.foldl_hom _ _ _ Session.meter _ _ operations ⟨.create, []⟩ each

section Starts

variable {meter next : Meter}

/-- What a meter is set up to does not depend on what it was before. -/
theorem setUp_congr (meter other : Meter) (parameters : Parameters) :
    meter.setUp parameters = other.setUp parameters := rfl

/-- A meter never has a rate above the highest one, be it set up or not. -/
theorem apply_rate (bounded : meter.parameters.rate ≤ maxRate) {operation : Operation}
    (done : operation.apply meter = .ok next) : next.parameters.rate ≤ maxRate := by
  -- Only a set-up chooses a rate, and it refuses those that are too large.
  cases operation with
  | setUp parameters =>
    rw [Operation.apply, Meter.setUp] at done
    split at done
    · cases done
    split at done
    · cases done
    · next accepted =>
      obtain rfl := Except.ok.inj done
      exact Nat.not_lt.mp (not_or.mp accepted).2
  | analyze samples count =>
    rw [analyze_parameters done]
    exact bounded
  | setMomentary seconds =>
    obtain rfl := Except.ok.inj done
    -- Another momentary time leaves the rate, also when it is out of range.
    rw [Meter.setMomentary]
    split
    · exact bounded
    · exact bounded
  | reset =>
    obtain rfl := Except.ok.inj done
    exact bounded
  | finalize =>
    obtain rfl := Except.ok.inj done
    exact bounded

/-- After any calls the rate is at most the highest one. -/
theorem calls_rate (operations : List Operation) :
    (calls operations).parameters.rate ≤ maxRate := by
  -- Calls are made one behind the last, so that the bound holds after each of them.
  induction operations using List.reverseRecOn with
  | nil => decide
  | append_singleton operations operation ih =>
    rw [calls, List.foldl_append, ← calls, List.foldl_cons, List.foldl_nil, Operation.on_call]
    cases done : operation.apply (calls operations) with
    | error refusal => exact ih
    | ok next => exact apply_rate ih done

/-- A meter that follows a history is set up to its own parameters by a reset. -/
theorem Follows.setUp_eq {frames : List (List Single)} (follows : Follows meter frames)
    (bounded : meter.parameters.rate ≤ maxRate) (ready : meter.ready = true) :
    meter.setUp meter.parameters = .ok meter.reset := by
  have channels : ¬(meter.parameters.channels = 0 ∨ maxChannels < meter.parameters.channels) :=
    not_or.mpr ⟨Nat.ne_of_gt follows.wide, Nat.not_lt.mpr follows.narrow⟩
  have rate : ¬(meter.parameters.rate = 0 ∨ maxRate < meter.parameters.rate) :=
    not_or.mpr ⟨Nat.ne_of_gt follows.rate, Nat.not_lt.mpr bounded⟩
  have momentary := follows.momentary.clear_eq follows.rate
  have shortTerm := follows.shortTerm.clear_eq (Nat.mul_pos (by decide) follows.rate)
  rw [Meter.setUp, if_neg channels, if_neg rate]
  -- All that a reset does not set back is what the parameters make of it.
  simp only [Meter.reset, momentary, shortTerm, ready, follows.shelf, follows.highPass,
    Loudness.shelf, Loudness.pass]

end Starts

/--
On a meter that was reached by any calls and is set up, a reset leaves what setting it up to its
parameters leaves, be it the meter or a new one. A call that is refused leaves the meter as it was.
-/
theorem calls_reset {operations : List Operation} {meter : Meter}
    (reached : calls operations = meter) :
    (meter.ready = true → ∃ next,
      Operation.reset.call.on meter = (.ok (), next) ∧
      (Operation.setUp meter.parameters).call.on meter = (.ok (), next) ∧
      (Operation.setUp meter.parameters).call.on .create = (.ok (), next)) ∧
    ∀ (operation : Operation) (refusal : Error),
      (operation.call.on meter).1 = .error refusal → (operation.call.on meter).2 = meter := by
  subst reached
  refine ⟨fun ready => ⟨(calls operations).reset, ?_⟩, fun operation refusal refused => ?_⟩
  · -- What a meter shows follows from the frames it has heard, and after a reset these are none.
    have follows : Follows (calls operations) (Session.run operations).frames :=
      calls_eq operations ▸ Session.run_follows operations (calls_eq operations ▸ ready)
    have same := follows.setUp_eq (calls_rate operations) ready
    simp only [Operation.on_call, Operation.apply]
    rw [setUp_congr .create (calls operations), same]
    exact ⟨rfl, rfl, rfl⟩
  · -- A call that is refused has not got beyond its checks.
    rw [Operation.on_call] at refused ⊢
    cases done : operation.apply (calls operations) with
    | error refusal => rfl
    | ok next =>
      rw [done] at refused
      cases refused

/-- A meter that has heard a frame and changed its window is set back, and keeps all it has when it is
sent too few samples or too many channels. -/
theorem calls_reset_heard :
    let parameters : Parameters := { rate := 8, channels := 4 }
    ∃ meter,
      (calls [.setUp { parameters with channels := 2 }, .analyze [1, 2] 1, .setUp parameters,
        .analyze [1, 2, 3, 4] 1, .setMomentary 1] = meter ∧ meter.ready = true) ∧
      (∃ next, Operation.reset.call.on meter = (.ok (), next) ∧
        (Operation.setUp { parameters with momentary := 1 }).call.on .create = (.ok (), next)) ∧
      (Operation.analyze [1] 1).call.on meter = (.error (.shortBuffer 4 1), meter) ∧
      (Operation.setUp { channels := 7 }).call.on meter = (.error (.channelCount 7), meter) := by
  intro parameters
  obtain ⟨meter, reached⟩ : ∃ meter, calls [.setUp { parameters with channels := 2 },
      .analyze [1, 2] 1, .setUp parameters, .analyze [1, 2, 3, 4] 1, .setMomentary 1] = meter :=
    ⟨_, rfl⟩
  have ready : meter.ready = true := by
    rw [← reached]
    rfl
  have own : meter.parameters = { parameters with momentary := 1 } := by
    rw [← reached]
    rfl
  -- One sample is too few for the four channels of the second set-up.
  have few : [(1 : Single)].length < 1 * meter.parameters.channels := by
    rw [own]
    decide
  have short : ((Operation.analyze [1] 1).call.on meter).1 = .error (.shortBuffer 4 1) := by
    rw [Operation.on_call, Operation.apply, analyze_short ready few, own]
    rfl
  obtain ⟨back, kept⟩ := calls_reset reached
  obtain ⟨next, reset, -, anew⟩ := back ready
  exact ⟨meter, ⟨reached, ready⟩, ⟨next, reset, own ▸ anew⟩, Prod.ext short (kept _ _ short),
    Prod.ext rfl (kept _ _ rfl)⟩

end Mixdown.Loudness
