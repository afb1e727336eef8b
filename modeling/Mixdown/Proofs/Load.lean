import Mathlib.Algebra.Ring.Nat
import Mixdown.Load

/-! Whatever clients share a meter and in whatever order they call it, no frame is lost. -/

namespace Mixdown.Load

/-- What a client can ask of the meter. -/
inductive Call where
  | switch (enabled : Bool)
  | account (cycles : UInt64) (drops : UInt32)
  | record (cycles : UInt64) (report : Report)
  | read
  deriving DecidableEq

/-- A call that was made, with what the client was told. -/
structure Moment where
  client : Nat
  call : Call
  told : Option Statistics

/-- A meter and its clients, each with the calls that it has still to make. -/
structure System where
  meter : Meter
  clients : List (List Call)

/-- The meter after a call. -/
def Call.apply (meter : Meter) : Call → Meter
  | switch enabled => meter.setEnabled enabled
  | account cycles drops => meter.account cycles.toNat drops.toNat
  | record cycles report => meter.record cycles.toNat report
  | read => meter

/-- What a call tells the client. -/
def Call.answer (meter : Meter) : Call → Option Statistics
  | read => some meter.read
  | _ => none

/-- The cycles and drops of a frame that a call brings. -/
def Call.frame? : Call → Option (Nat × Nat)
  | account cycles drops => some (cycles.toNat, drops.toNat)
  | record cycles report => some (cycles.toNat, report.skipped)
  | switch _ | read => none

/-- Any one client makes its next call, which no other call can come in between of. -/
inductive Step : System → Moment → System → Prop
  | call {system : System} {client : Nat} {call : Call} {rest : List Call}
      (next : system.clients[client]? = some (call :: rest)) :
      Step system ⟨client, call, call.answer system.meter⟩
        ⟨call.apply system.meter, system.clients.set client rest⟩

/-- Clients have made the calls of the past, the newest first, and have come to a system. -/
inductive Run (programs : List (List Call)) : List Moment → System → Prop
  | start : Run programs [] ⟨.create, programs⟩
  | step {past : List Moment} {moment : Moment} {system after : System}
      (run : Run programs past system) (step : Step system moment after) :
      Run programs (moment :: past) after

/-- Frames are gathered when the last switch was to that effect. -/
def isOn : List Moment → Bool
  | [] => false
  | moment :: past =>
    match moment.call with
    | .switch enabled => enabled
    | _ => isOn past

/-- The frames that were brought while they were gathered, since they last were not. -/
def counted : List Moment → List (Nat × Nat)
  | [] => []
  | moment :: past =>
    if moment.call = .switch false then []
    else if isOn past then moment.call.frame?.toList ++ counted past
    else counted past

/-- All cycles that count. -/
def cycles (past : List Moment) : Nat := ((counted past).map Prod.fst).sum

/-- All drops that count. -/
def drops (past : List Moment) : Nat := ((counted past).map Prod.snd).sum

/-- The calls that a client has made, in their order. -/
def made (client : Nat) (past : List Moment) : List Call :=
  ((past.filter (·.client = client)).map Moment.call).reverse

/-- Statistics are those of all frames that count, or zero while none are gathered. -/
structure Shows (past : List Moment) (seen : Statistics) : Prop where
  off : isOn past = false → seen = .zero
  total : isOn past → seen.totalCycles = min (cycles past) maxCycles
  active : isOn past → seen.activeCycles = min (cycles past) maxCycles
  drops : isOn past → seen.commandDrops = min (drops past) maxDrops

/-- A meter has gathered the frames that count. -/
structure Follows (past : List Moment) (meter : Meter) : Prop where
  enabled : meter.enabled = isOn past
  gathered : meter.statistics = Statistics.zero.account (cycles past) (drops past)

namespace Statistics

/-- The share of cycles that were active, as the meter shows it. -/
def percent (active total : Nat) : Single :=
  .ofFloat (active.toUInt64.toFloat / total.toUInt64.toFloat * 100).toFloat32

/-- A frame adds to three counts, and the shares are told anew from the new counts. -/
theorem account_eq (statistics : Statistics) (cycles drops : Nat) :
    statistics.account cycles drops =
      let total := min (statistics.totalCycles + cycles) maxCycles
      let active := min (statistics.activeCycles + cycles) maxCycles
      { statistics with
        totalCycles := total
        activeCycles := active
        commandDrops := min (statistics.commandDrops + drops) maxDrops
        cpuPercent := if total = 0 then statistics.cpuPercent else percent active total
        dspPercent := if total = 0 then statistics.dspPercent else percent active total * 0.5 } := by
  simp only [account, percent]
  split <;> rfl

/-- Two frames count like one with the cycles and the drops of both. -/
theorem account_account (statistics : Statistics) (cycles drops more moreDrops : Nat) :
    (statistics.account cycles drops).account more moreDrops =
      statistics.account (cycles + more) (drops + moreDrops) := by
  -- A count that has reached its largest value stays there, whichever frame brought it up.
  have sums (before first second most : Nat) :
      min (min (before + first) most + second) most = min (before + (first + second)) most := by
    omega
  have early : min (statistics.totalCycles + (cycles + more)) maxCycles = 0 →
      min (statistics.totalCycles + cycles) maxCycles = 0 := by
    omega
  simp only [account_eq, sums]
  by_cases none : min (statistics.totalCycles + (cycles + more)) maxCycles = 0
  · simp only [none, early none, if_true]
  · simp only [none, if_false]

/-- A frame that brings nothing leaves nothing. -/
theorem account_zero : zero.account 0 0 = zero := rfl

end Statistics

variable {programs : List (List Call)} {past : List Moment} {moment : Moment}
  {system after : System} {meter : Meter}

/-- No frames count while none are gathered. -/
theorem counted_off (off : isOn past = false) : counted past = [] := by
  induction past with
  | nil => rfl
  | cons moment past ih =>
    obtain ⟨client, call, told⟩ := moment
    cases call with
    | switch enabled =>
      obtain rfl : enabled = false := off
      rfl
    | _ =>
      -- Any other call leaves it to the calls before whether frames are gathered.
      have before : isOn past = false := off
      simp [counted, before, ih before]

/-- A meter that follows the past shows it, to its readers as well. -/
theorem Follows.shows (follows : Follows past meter) :
    Shows past meter.statistics ∧ Shows past meter.read := by
  -- What is stored has gathered the frames since the last time it was turned on.
  have stored : Shows past meter.statistics := by
    rw [follows.gathered]
    refine ⟨fun off => ?_, fun _ => ?_, fun _ => ?_, fun _ => ?_⟩
    · simp only [cycles, drops, counted_off off, List.map_nil, List.sum_nil,
        Statistics.account_zero]
    all_goals simp only [Statistics.account_eq, Statistics.zero, Nat.zero_add]
  refine ⟨stored, ?_⟩
  rw [Meter.read, follows.enabled]
  -- A meter that is turned off shows zeros, whatever it still holds.
  cases on : isOn past with
  | true => exact stored
  | false => exact ⟨fun _ => rfl, by simp [on], by simp [on], by simp [on]⟩

/-- Meters that have gathered the same frames are equal, in whatever order these were brought. -/
theorem Follows.eq_of_perm {other : List Moment} {reached : Meter} (follows : Follows past meter)
    (alike : Follows other reached) (on : isOn past = isOn other)
    (same : (counted past).Perm (counted other)) : meter = reached := by
  -- Sums do not depend on the order of what is summed.
  have cyclesEq : cycles past = cycles other := (same.map Prod.fst).sum_nat
  have dropsEq : drops past = drops other := (same.map Prod.snd).sum_nat
  have enabled := follows.enabled.trans (on.trans alike.enabled.symm)
  have gathered := alike.gathered
  rw [← cyclesEq, ← dropsEq, ← follows.gathered] at gathered
  calc meter
    _ = ⟨meter.enabled, meter.statistics⟩ := rfl
    _ = reached := by rw [enabled, ← gathered]

/-- A frame is gathered when the last switch says so. -/
theorem Follows.frame (follows : Follows past meter) {call : Call} {frame : Nat × Nat}
    (brought : call.frame? = some frame) (client : Nat) (told : Option Statistics) :
    Follows (⟨client, call, told⟩ :: past) (meter.account frame.1 frame.2) := by
  have still : isOn (⟨client, call, told⟩ :: past) = isOn past ∧ call ≠ .switch false := by
    cases call <;> simp_all [isOn, Call.frame?]
  constructor
  · rw [still.1, ← follows.enabled, Meter.account]
    split <;> rfl
  · rw [Meter.account, follows.enabled]
    cases on : isOn past with
    | true =>
      -- The frame joins those that have been counted already.
      simp only [if_true, follows.gathered, Statistics.account_account, cycles, drops, counted,
        still.2, if_false, on, brought, Option.toList_some, List.singleton_append, List.map_cons,
        List.sum_cons, Nat.add_comm]
    | false =>
      simp only [Bool.false_eq_true, if_false, follows.gathered, cycles, drops, counted, still.2,
        on]

/-- Each call keeps the meter in step with the past. -/
theorem Follows.step (follows : Follows past system.meter) (step : Step system moment after) :
    Follows (moment :: past) after.meter := by
  -- Of all calls only those that bring a frame, and those that turn the meter on, change what it
  -- holds.
  cases step with
  | @call client call rest next =>
    cases call with
    | switch enabled =>
      cases enabled with
      | true =>
        refine ⟨rfl, ?_⟩
        simp [Call.apply, Meter.setEnabled, follows.gathered, cycles, drops, counted, Call.frame?]
      | false => exact ⟨rfl, rfl⟩
    | account cycles drops =>
      have brought : (Call.account cycles drops).frame? = some (cycles.toNat, drops.toNat) := rfl
      exact follows.frame brought client none
    | record cycles report =>
      have brought : (Call.record cycles report).frame? = some (cycles.toNat, report.skipped) := rfl
      exact follows.frame brought client none
    | read =>
      refine ⟨follows.enabled, ?_⟩
      simp [Call.apply, follows.gathered, cycles, drops, counted, Call.frame?]

/-- At each point of a run the meter has gathered the frames that count. -/
theorem Run.follows (run : Run programs past system) : Follows past system.meter := by
  induction run with
  | start => exact ⟨rfl, rfl⟩
  | step run step ih => exact ih.step step

/-- A run has passed through each point of its past. -/
theorem Run.earlier {later : List Moment} (run : Run programs (later ++ past) system) :
    ∃ before, Run programs past before := by
  -- Each moment is one step of the run.
  induction later generalizing system with
  | nil => exact ⟨system, run⟩
  | cons moment later ih =>
    cases run with
    | step run step => exact ih run

/-- Clients make the calls of their programs one after the other, and leave out none. -/
theorem Run.made_eq (run : Run programs past system) (client : Nat) :
    programs[client]? = system.clients[client]?.map (made client past ++ ·) := by
  -- A step moves one call of one client, and leaves all other clients as they were.
  induction run with
  | start => simp [made]
  | @step past moment system after run step ih =>
    cases step with
    | @call caller call rest next =>
      by_cases own : caller = client
      · -- The call moves from the front of what is left to the end of what was made.
        subst own
        obtain ⟨inside, held⟩ := List.getElem?_eq_some_iff.mp next
        simp [ih, inside, held, made]
      · simp [ih, own, made]

/--
However many clients share a meter and in whatever order their calls come, no call is lost and no
frame that is brought while frames are gathered. What is stored, what is read and what any reader
was told before are the sums of the frames that count, which do not depend on the order of these
frames, and zero while none are gathered. Then frames change nothing, and neither does switching on
a meter that is on.
-/
theorem run_gathers (run : Run programs past system) :
    (∀ client, programs[client]? = system.clients[client]?.map (made client past ++ ·)) ∧
      Shows past system.meter.statistics ∧ Shows past system.meter.read ∧
      (∀ later moment earlier, past = later ++ moment :: earlier → moment.call = .read →
        ∃ seen, moment.told = some seen ∧ Shows earlier seen) ∧
      (∀ programs' past' system', Run programs' past' system' → isOn past' = isOn past →
        (counted past').Perm (counted past) → system'.meter = system.meter) ∧
      ∀ moment after, Step system moment after →
        (isOn past = false → moment.call.frame?.isSome → after.meter = system.meter) ∧
        (isOn past → moment.call = .switch true → after.meter = system.meter) := by
  have follows := run.follows
  obtain ⟨stored, read⟩ := follows.shows
  refine ⟨run.made_eq, stored, read, ?_, ?_, ?_⟩
  · rintro later moment earlier rfl asked
    -- The reader was told what the meter had gathered at that point of the run.
    obtain ⟨reached, ran⟩ := run.earlier
    cases ran with
    | @step _ _ before _ ran step =>
      cases step with
      | @call client call rest next =>
        obtain rfl : call = .read := asked
        exact ⟨_, rfl, ran.follows.shows.2⟩
  · intro programs' past' system' run' on same
    exact run'.follows.eq_of_perm follows on same
  · intro moment after step
    cases step with
    | @call client call rest next =>
      refine ⟨fun off brought => ?_, fun on switched => ?_⟩
      · have disabled : system.meter.enabled = false := follows.enabled.trans off
        cases call with
        | account cycles drops => simp [Call.apply, Meter.account, disabled]
        | record cycles report => simp [Call.apply, Meter.record, Meter.account, disabled]
        | switch enabled => simp [Call.frame?] at brought
        | read => simp [Call.frame?] at brought
      · obtain rfl : call = .switch true := switched
        have enabled : system.meter.enabled = true := follows.enabled.trans on
        simp only [Call.apply, Meter.setEnabled, if_true, ← enabled]

/-- A frame comes too early, the switch is put on twice, and the count of cycles runs full. -/
theorem run_gathers_full :
    let programs : List (List Call) :=
      [[.switch true, .account 5 1],
       [.account 7 2, .switch true, .record 0xFFFFFFFFFFFFFFFF ⟨9, 4⟩, .read]]
    ∃ past system moment earlier seen, Run programs past system ∧ past = moment :: earlier ∧
      moment.told = some seen ∧ counted earlier = [(0xFFFFFFFFFFFFFFFF, 4), (5, 1)] ∧
      seen.totalCycles = maxCycles ∧ seen.activeCycles = maxCycles ∧ seen.commandDrops = 5 := by
  intro programs
  -- The clients take turns; the last call but one fills the counter up, and the last one reads it.
  have early := (@Run.start programs).step (@Step.call _ 1 _ _ rfl)
  have switched := early.step (@Step.call _ 0 _ _ rfl)
  have counting := switched.step (@Step.call _ 0 _ _ rfl)
  have again := counting.step (@Step.call _ 1 _ _ rfl)
  have full := again.step (@Step.call _ 1 _ _ rfl)
  have run := full.step (@Step.call _ 1 _ _ rfl)
  obtain ⟨-, -, -, told, -⟩ := run_gathers run
  obtain ⟨seen, found, shows⟩ := told [] _ _ rfl rfl
  exact ⟨_, _, _, _, seen, run, rfl, found, rfl, shows.total rfl, shows.active rfl, shows.drops rfl⟩

end Mixdown.Load
