import Mixdown.Proofs.Fft.Plan

/-! Calls of one plan after the other: none depends on what earlier ones left in the work buffer. -/

namespace Mixdown.Fft

/-- An output slice. -/
inductive Slice (R C : Type) where
  | real (samples : Array R)
  | complex (bins : Array C)
  deriving DecidableEq

/-- What a plan is called for. -/
inductive Call (R C : Type) where
  | realToComplex (output : Array C) (input : Array R) (count : Nat)
  | complexToReal (output : Array R) (input : Array C) (count : Nat)
  | complexToComplex (output input : Array C) (count : Nat) (inverse : Bool)

/-- What a call reports, and the output slice that it leaves. -/
structure Reply (R C : Type) where
  error : Option Error
  output : Slice R C
  deriving DecidableEq

variable {R C : Type}

namespace Plan

/-- Why a job has been refused, if it has. -/
def refused? : Except Error Unit → Option Error
  | .ok () => none
  | .error error => some error

/-- The plan that a job leaves, with a reply that tells how it has ended and shows the output. -/
def replied (slice : Array α → Slice R C) (left : Except Error Unit × Plan C × Array α) :
    Plan C × Reply R C :=
  (left.2.1, { error := refused? left.1, output := slice left.2.2 })

/-- The plan and the reply after a call, both of them as the job in place has left them. -/
def call (arithmetic : Arithmetic R C) (plan : Plan C) : Call R C → Plan C × Reply R C
  | .realToComplex output input count =>
    replied .complex ((processRealToComplex arithmetic input count).on (plan, output))
  | .complexToReal output input count =>
    replied .real ((processComplexToReal arithmetic input count).on (plan, output))
  | .complexToComplex output input count inverse =>
    replied .complex ((processComplexToComplex arithmetic input count inverse).on (plan, output))

/-- The plan and all replies after calls that use it in turn. -/
def calls (arithmetic : Arithmetic R C) : Plan C → List (Call R C) → Plan C × List (Reply R C)
  | plan, [] => (plan, [])
  | plan, call :: later =>
    let (plan, reply) := plan.call arithmetic call
    let (plan, replies) := plan.calls arithmetic later
    (plan, reply :: replies)

end Plan

/-- The output with other items in front. -/
def refill (output : Array α) (count : Nat) (items : Nat → α) : Array α :=
  output.mapIdx fun index held => if index < count then items index else held

namespace Call

/-- The output slice that a call is given. -/
def output : Call R C → Slice R C
  | realToComplex output _ _ => .complex output
  | complexToReal output _ _ => .real output
  | complexToComplex output _ _ _ => .complex output

/-- Why a plan of some size refuses a call, if it does. -/
def refusal (size : Nat) : Call R C → Option Error
  | realToComplex output input count =>
    Fft.refusal size count size input.size (size / 2 + 1) output.size
  | complexToReal output input count =>
    Fft.refusal size count (size / 2 + 1) input.size size output.size
  | complexToComplex output input count _ =>
    Fft.refusal size count size input.size size output.size

/-- The output of a call that is not refused: the transformed input in front of the old output. -/
def result [Inhabited R] [Inhabited C] (arithmetic : Arithmetic R C) (size : Nat) :
    Call R C → Slice R C
  | realToComplex output input _ =>
    .complex (refill output (size / 2 + 1) (transformed arithmetic false size.log2 fun index =>
      arithmetic.embed (input.getD index default)))
  | complexToReal output input _ =>
    .real (refill output size fun index => arithmetic.realPart (transformed arithmetic true
      size.log2 (mirrored arithmetic size fun index => input.getD index default) index))
  | complexToComplex output input _ inverse =>
    .complex (refill output size (transformed arithmetic inverse size.log2 fun index =>
      input.getD index default))

/-- The reply to a call by its arguments and the size of the plan alone. -/
def reply [Inhabited R] [Inhabited C] (arithmetic : Arithmetic R C) (size : Nat)
    (call : Call R C) : Reply R C where
  error := call.refusal size
  output := if (call.refusal size).isSome then call.output else call.result arithmetic size

end Call

/-- Only the front of a refilled output is new. -/
theorem getElem?_refill (output : Array α) (count : Nat) (items : Nat → α) (index : Nat) :
    (refill output count items)[index]? =
      output[index]?.map fun held => if index < count then items index else held := by
  rw [refill, Array.getElem?_mapIdx]

/-- A buffer that is long enough shows its own items. -/
theorem shows_getD [Inhabited α] {input : Array α} {count : Nat} (long : count ≤ input.size) :
    Shows input count fun index => input.getD index default := by
  intro index within
  have inside : index < input.size := by omega
  simp [inside]

/-- The first of three checks that fails decides why a transform is refused, if any does. -/
theorem refusal_cases (size count reads given writes held : Nat) :
    let refused := refusal size count reads given writes held
    count ≠ size ∧ refused = some (.sampleCountMismatch size count) ∨
      count = size ∧ given < reads ∧ refused = some (.shortBuffer reads given) ∨
      count = size ∧ ¬given < reads ∧ held < writes ∧ refused = some (.shortBuffer writes held) ∨
      count = size ∧ ¬given < reads ∧ ¬held < writes ∧ refused = none := by
  -- The checks are made in this order, and a later one is not reached when an earlier one fails.
  by_cases other : count ≠ size
  · exact .inl ⟨other, if_pos other⟩
  by_cases short : given < reads
  · exact .inr (.inl ⟨not_not.mp other, short, by rw [refusal, if_neg other, if_pos short]⟩)
  by_cases low : held < writes
  · exact .inr (.inr (.inl ⟨not_not.mp other, short, low,
      by rw [refusal, if_neg other, if_neg short, if_pos low]⟩))
  · exact .inr (.inr (.inr ⟨not_not.mp other, short, low,
      by rw [refusal, if_neg other, if_neg short, if_neg low]⟩))

/-- A transform that is not refused has been called for its size, with slices that are long enough. -/
theorem of_refusal_eq_none {size count reads given writes held : Nat}
    (fine : refusal size count reads given writes held = none) :
    count = size ∧ reads ≤ given ∧ writes ≤ held := by
  -- Each of the first three cases gives a reason.
  obtain ⟨-, found⟩ | ⟨-, -, found⟩ | ⟨-, -, -, found⟩ | ⟨same, long, room, -⟩ :=
    refusal_cases size count reads given writes held
  · cases found.symm.trans fine
  · cases found.symm.trans fine
  · cases found.symm.trans fine
  · exact ⟨same, Nat.not_lt.mp long, Nat.not_lt.mp room⟩

/-- No transform is refused because of a fault. -/
theorem refusal_ne_fault (size count reads given writes held : Nat) (fault : Fault) :
    refusal size count reads given writes held ≠ some (.fault fault) := by
  obtain ⟨-, found⟩ | ⟨-, -, found⟩ | ⟨-, -, -, found⟩ | ⟨-, -, -, found⟩ :=
    refusal_cases size count reads given writes held
  all_goals simp [found]

/-- No call is refused because of a fault. -/
theorem Call.refusal_ne_fault (call : Call R C) (size : Nat) (fault : Fault) :
    call.refusal size ≠ some (.fault fault) := by
  cases call with
  | realToComplex output input count => exact Fft.refusal_ne_fault _ _ _ _ _ _ fault
  | complexToReal output input count => exact Fft.refusal_ne_fault _ _ _ _ _ _ fault
  | complexToComplex output input count inverse => exact Fft.refusal_ne_fault _ _ _ _ _ _ fault

namespace Plan

/-- The output of a call is the old one with the answer in front. -/
theorem Answers.output_eq {plan : Plan C} {left : Nat → C} {output : Array R} {count : Nat}
    {items : Nat → R} {answer : Plan C × Array R}
    (answers : Answers plan left output count items answer)
    (room : count ≤ output.size) : answer.2 = refill output count items := by
  -- In front the answer shows its items, and behind them the old output is kept.
  refine Array.ext_getElem? fun index => ?_
  rw [getElem?_refill]
  rcases Nat.lt_or_ge index count with early | late
  · have inside : index < output.size := by omega
    rw [answers.shows index early, Array.getElem?_eq_getElem inside, Option.map_some, if_pos early]
  · rw [answers.kept index late]
    simp [Nat.not_lt.mpr late]

/-- A call is replied to as its checks say: with an error and no change, or with its answer in front. -/
theorem replied_eq {plan : Plan C} (ready : plan.Ready) (slice : Array α → Slice R C)
    {output : Array α} {left : Except Error Unit × Plan C × Array α} {refused : Option Error}
    {count : Nat} {items : Nat → α}
    (stops : ∀ error, refused = some error → left = (.error error, plan, output))
    (answers : refused = none → count ≤ output.size ∧ ∃ shown answer,
      left = (.ok (), answer) ∧ Answers plan shown output count items answer) :
    ∃ next, replied slice left = (next, ⟨refused,
        if refused.isSome then slice output else slice (refill output count items)⟩) ∧
      next.size = plan.size ∧ next.Ready ∧ (refused.isSome → next = plan) := by
  -- Either the checks have stopped the job, or it has run to its end.
  cases refused with
  | some error =>
    rw [stops error rfl]
    exact ⟨plan, rfl, rfl, ready, fun _ => rfl⟩
  | none =>
    obtain ⟨room, shown, ⟨next, outcome⟩, ran, given⟩ := answers rfl
    rw [ran]
    obtain rfl : outcome = refill output count items := given.output_eq room
    exact ⟨next, rfl, given.size, given.ready, fun impossible => (nomatch impossible)⟩

variable [Inhabited R] [Inhabited C] (arithmetic : Arithmetic R C)

/-- A plan that is ready replies to a call by its arguments alone, and is ready for the next one. -/
theorem Ready.call {plan : Plan C} (ready : plan.Ready) (call : Call R C) :
    ∃ next, plan.call arithmetic call = (next, call.reply arithmetic plan.size) ∧
      next.size = plan.size ∧ next.Ready ∧ ((call.refusal plan.size).isSome → next = plan) := by
  obtain ⟨bits, power⟩ := ready.power
  have log : plan.size.log2 = bits := by rw [power, Nat.log2_two_pow]
  -- Whether a call is refused is decided by its checks, and past them the input shows its items.
  cases call with
  | realToComplex output input count =>
    refine replied_eq ready .complex (fun error refused => ?_) fun fine => ?_
    · rw [processRealToComplex_on, show Fft.refusal _ _ _ _ _ _ = _ from refused]
    obtain ⟨rfl, long, room⟩ := of_refusal_eq_none fine
    rw [log]
    exact ⟨room, _, ready.processRealToComplex arithmetic power (shows_getD long) output room⟩
  | complexToReal output input count =>
    refine replied_eq ready .real (fun error refused => ?_) fun fine => ?_
    · rw [processComplexToReal_on, show Fft.refusal _ _ _ _ _ _ = _ from refused]
    obtain ⟨rfl, long, room⟩ := of_refusal_eq_none fine
    rw [log]
    exact ⟨room, _, ready.processComplexToReal arithmetic power (shows_getD long) output room⟩
  | complexToComplex output input count inverse =>
    refine replied_eq ready .complex (fun error refused => ?_) fun fine => ?_
    · rw [processComplexToComplex_on, show Fft.refusal _ _ _ _ _ _ = _ from refused]
    obtain ⟨rfl, long, room⟩ := of_refusal_eq_none fine
    rw [log]
    exact ⟨room, _,
      ready.processComplexToComplex arithmetic power inverse (shows_getD long) output room⟩

/-- A plan that is ready replies to all calls by their arguments alone, and stays ready. -/
theorem Ready.calls {plan : Plan C} (ready : plan.Ready) (calls : List (Call R C)) :
    ∃ last, plan.calls arithmetic calls = (last, calls.map (Call.reply arithmetic plan.size)) ∧
      last.size = plan.size ∧ last.Ready := by
  induction calls generalizing plan with
  | nil => exact ⟨plan, rfl, rfl, ready⟩
  | cons call later ih =>
    -- What the first call leaves in the work buffer has no part in what a plan needs to be ready.
    obtain ⟨next, ran, size, still, -⟩ := ready.call arithmetic call
    obtain ⟨last, run, same, done⟩ := ih still
    rw [size] at run same
    exact ⟨last, by simp only [Plan.calls, ran, run, List.map_cons], same, done⟩

/--
However a plan is set up and whatever it is called for, each reply is decided by the arguments of its
call, the output slice that it is given and the size: a call that is refused leaves the plan and the
output, and any other puts the transformed input in front of the output. No call is refused for
a fault. Reversing bits reaches every index, so nothing that was left in the work buffer is read.
-/
theorem calls_reply {size : Nat} {mode : Mode} {work : Array C} {plan : Plan C}
    (made : create size mode work = .ok plan) (calls : List (Call R C)) :
    (plan.calls arithmetic calls).2 = calls.map (Call.reply arithmetic size) ∧
      (∀ reply ∈ (plan.calls arithmetic calls).2, ∀ fault, reply.error ≠ some (.fault fault)) ∧
      (∀ (call : Call R C) (error : Error), call.refusal size = some error →
        let next := (plan.calls arithmetic calls).1
        next.call arithmetic call = (next, ⟨some error, call.output⟩)) ∧
      ((List.range size).map (reverseBits size.log2)).Perm (List.range size) := by
  obtain ⟨rfl, ready⟩ := create_eq_ok_iff.mp made
  obtain ⟨last, ran, same, still⟩ := ready.calls arithmetic calls
  rw [ran]
  refine ⟨rfl, ?_, fun call error refused => ?_, ?_⟩
  · intro reply here fault
    obtain ⟨call, -, rfl⟩ := List.mem_map.mp here
    exact call.refusal_ne_fault size fault
  · -- Whatever was called before, a refused call finds and leaves the plan as it is.
    obtain ⟨next, settled, -, -, stays⟩ := still.call arithmetic call
    rw [show last.size = size from same] at settled stays
    rw [stays (by rw [refused]; rfl)] at settled
    simpa [Call.reply, refused] using settled
  · obtain ⟨bits, rfl⟩ := ready.power
    rw [Nat.log2_two_pow]
    exact reverseBits_perm bits

/-- A buffer with more room than needed is used back and forth, with a refusal in between. -/
theorem calls_reply_two :
    let integers : Arithmetic Int Int :=
      { add := (· + ·), sub := (· - ·), mul := (· * ·), twiddle := fun _ _ _ => 1
        shrink := fun size z => z / size, embed := id, realPart := id, conjugate := id }
    let plan : Plan Int := ⟨2, .realToComplex, #[7, 7, 7, 7, 7]⟩
    create 2 .realToComplex #[7, 7, 7, 7, 7] = .ok plan ∧
      (plan.calls integers [.realToComplex #[9, 9, 9] #[3, 5] 2, .realToComplex #[9, 9, 9] #[3, 5] 4,
        .complexToReal #[9, 9] #[8, -2] 2, .complexToComplex #[9] #[8, -2] 2 true]).2 =
        [⟨none, .complex #[8, -2, 9]⟩, ⟨some (.sampleCountMismatch 2 4), .complex #[9, 9, 9]⟩,
          ⟨none, .real #[3, 5]⟩, ⟨some (.shortBuffer 2 1), .complex #[9]⟩] := by
  intro integers plan
  have made : create 2 .realToComplex #[7, 7, 7, 7, 7] = .ok plan :=
    create_eq_ok_iff.mpr ⟨rfl, ⟨1, rfl⟩, by decide⟩
  exact ⟨made, (calls_reply integers made _).1.trans (by decide +kernel)⟩

end Plan

end Mixdown.Fft
