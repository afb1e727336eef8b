import Mixdown.Error

/-! Calls on a state in place, of which all that was written stays when they are refused later on. -/

namespace Mixdown

/-- A call on a state in place. -/
abbrev InPlace (σ : Type) := ExceptT Error (StateM σ)

namespace InPlace

variable {σ α β : Type}

/-- How a call ends, with the state that it leaves in either case. -/
def on (call : InPlace σ α) (state : σ) : Except Error α × σ := call.run.run state

/-- The answer of a call and the state that it leaves, unless it is refused. -/
def settled : Except Error α × σ → Except Error (α × σ)
  | (.ok answer, state) => .ok (answer, state)
  | (.error refusal, _) => .error refusal

variable (state : σ)

/-- A refusal writes nothing. -/
@[simp] theorem on_throw (refusal : Error) :
    on (throw refusal : InPlace σ α) state = (.error refusal, state) := rfl

/-- A computation that does not look at the state leaves it. -/
@[simp] theorem on_lift (result : Except Error α) :
    on (liftM result : InPlace σ α) state = (result, state) := rfl

/-- A call that looks at the state finds the one that it is made on. -/
@[simp] theorem on_get (next : σ → InPlace σ α) :
    on (get >>= next) state = (next state).on state := rfl

variable {state} {first : InPlace σ α} {next : α → InPlace σ β} {answer : α} {left : σ}

/-- A call goes on with the answer of its first part, on the state that this has left. -/
theorem on_bind (ends : first.on state = (.ok answer, left)) :
    on (first >>= next) state = (next answer).on left := by
  -- What comes next is decided by how the first part ends, and by nothing else.
  have parts : on (first >>= next) state =
      (ExceptT.bindCont next (first.on state).1).run (first.on state).2 := rfl
  rw [parts, ends]
  rfl

/-- A call is refused with its first part, and leaves what this has written. -/
theorem on_bind_refused {refusal : Error} (ends : first.on state = (.error refusal, left)) :
    on (first >>= next) state = (.error refusal, left) := by
  have parts : on (first >>= next) state =
      (ExceptT.bindCont next (first.on state).1).run (first.on state).2 := rfl
  rw [parts, ends]
  rfl

/-- A call in two parts answers when the second one does, on the state that the first one leaves. -/
theorem on_bind_eq_ok {final : β} {last : σ} :
    on (first >>= next) state = (.ok final, last) ↔
      ∃ answer left, first.on state = (.ok answer, left) ∧ (next answer).on left =
        (.ok final, last) := by
  rcases ends : first.on state with ⟨refusal | answer, left⟩
  · simp [on_bind_refused ends]
  · rw [on_bind ends]
    constructor
    · exact fun ran => ⟨answer, left, rfl, ran⟩
    · rintro ⟨_, _, same, ran⟩
      obtain ⟨found, rfl⟩ := Prod.mk.inj same
      rwa [Except.ok.inj found]

end InPlace

end Mixdown
