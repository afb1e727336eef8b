import Mixdown.Effect.Rack
import Mixdown.Proofs.Effect.Record
import Mixdown.Proofs.Effect.Slot

/-! A rack issues the commands of its slots in order, and issues the same ones after a frame. -/

namespace Mixdown.Effect.Rack

/-- The places that a rack holds. -/
def places (rack : Rack) : List Place := rack.slots.flatMap Slot.places

/-- The buffers of all slots are those of the first channels. -/
def Within (channels : Nat) (rack : Rack) : Prop := ∀ slot ∈ rack.slots, slot.Within channels

/-- Slots among the channels issue their commands in order without a fault. -/
theorem generateFrom_eq {channels : Nat} {slots : List Slot}
    (within : ∀ slot ∈ slots, slot.Within channels) (double : Bool) (states : States) :
    ∃ after left commands, generateFrom 0 double slots states = .ok (after, left, commands) ∧
      Issue channels states left (slots.flatMap Slot.places) (after.flatMap Slot.places) commands ∧
      (∀ slot ∈ after.map Slot.advance, slot.Within channels) ∧
      ∀ later, generateFrom 0 double (after.map Slot.advance) later =
        .ok (after.map Slot.advance, later, commands.map Command.steady) := by
  induction slots generalizing states with
  | nil => exact ⟨[], states, [], rfl, .none _ _, by simp, fun _ => rfl⟩
  | cons slot slots ih =>
    -- The other slots claim places in the tables that the first one has left.
    obtain ⟨own, behind⟩ := List.forall_mem_cons.mp within
    obtain ⟨first, middle, commands, starts⟩ := own.starts double states
    obtain ⟨rest, left, others, generates, issue, kept, again⟩ := ih behind middle
    refine ⟨first :: rest, left, commands ++ others, ?_, ?_,
      List.forall_mem_cons.mpr ⟨starts.kept, kept⟩, fun later => ?_⟩
    · simp only [generateFrom, starts.generates, generates, ok_bind, pure_eq_ok]
    · simpa only [List.flatMap_cons] using starts.issue.append issue
    · simp only [List.map_cons, List.map_append, generateFrom, starts.again, again, ok_bind,
        pure_eq_ok]

/-- Slots issue their commands one after the other, each with the states that those before it left. -/
theorem generateFrom_cases {offset : Int16} {double : Bool} {slots after : List Slot}
    {states left : States} {commands : List Command}
    (ran : generateFrom offset double slots states = .ok (after, left, commands)) :
    ∃ own : List (List Command), commands = own.flatten ∧ own.length = slots.length ∧
      after.length = slots.length ∧
      ∀ (index : Nat) (slot : Slot), slots[index]? = some slot → ∃ new issued early late,
        after[index]? = some new ∧ own[index]? = some issued ∧
          slot.generate offset double early = .ok (new, late, issued) := by
  induction slots generalizing after states left commands with
  | nil =>
    obtain ⟨rfl, rest⟩ := Prod.mk.inj (Except.ok.inj ran)
    obtain ⟨-, rfl⟩ := Prod.mk.inj rest
    exact ⟨[], rfl, rfl, rfl, by simp⟩
  | cons slot slots ih =>
    obtain ⟨⟨new, middle, issued⟩, first, ran⟩ := bind_eq_ok.mp ran
    obtain ⟨⟨rest, late, others⟩, behind, ran⟩ := bind_eq_ok.mp ran
    obtain ⟨rfl, ends⟩ := Prod.mk.inj (Except.ok.inj ran)
    obtain ⟨-, rfl⟩ := Prod.mk.inj ends
    obtain ⟨own, rfl, length, lengthAfter, each⟩ := ih behind
    refine ⟨issued :: own, rfl, congrArg Nat.succ length, congrArg Nat.succ lengthAfter,
      fun index slot found => ?_⟩
    -- The first slot issues first, and the states it leaves are those the others begin with.
    cases index with
    | zero =>
      obtain rfl := Option.some.inj found
      exact ⟨new, issued, states, middle, rfl, rfl, first⟩
    | succ index => exact each index slot found

/-- A rack among the channels issues its commands without a fault, and again after the frame. -/
theorem Within.generate_eq {channels : Nat} {rack : Rack} (within : rack.Within channels)
    (double : Bool) (states : States) :
    ∃ after left commands, rack.generate 0 double states = .ok (after, left, commands) ∧
      Issue channels states left rack.places after.places commands ∧
      (∀ published, (after.advance.publish published).share.Within channels) ∧
      ∀ published later, (after.advance.publish published).share.generate 0 double later =
        .ok ((after.advance.publish published).share, later, commands.map Command.steady) := by
  obtain ⟨slots, left, commands, generates, issue, kept, again⟩ :=
    generateFrom_eq within double states
  refine ⟨{ rack with slots }, left, commands, ?_, issue, fun _ => kept,
    fun published later => ?_⟩
  · simp only [generate, generates, ok_bind, pure_eq_ok]
  · -- Publishing and sharing change the result blocks only.
    simp only [advance, publish, share, generate, again, ok_bind, pure_eq_ok]

/-- Slots issue at most as many commands as they can have channels. -/
theorem length_generateFrom_le {offset : Int16} {double : Bool} {slots after : List Slot}
    {states left : States} {commands : List Command}
    (ran : generateFrom offset double slots states = .ok (after, left, commands)) :
    commands.length ≤ maxChannels * slots.length := by
  induction slots generalizing after states left commands with
  | nil =>
    cases ran
    exact Nat.zero_le _
  | cons slot slots ih =>
    obtain ⟨⟨new, middle, issued⟩, first, ran⟩ := bind_eq_ok.mp ran
    obtain ⟨⟨rest, late, others⟩, behind, ran⟩ := bind_eq_ok.mp ran
    cases ran
    -- The first slot's commands are bounded alone, and those of the others all together.
    rw [List.length_append, List.length_cons, Nat.mul_succ, Nat.add_comm]
    exact Nat.add_le_add (ih behind) (Slot.length_generate_le first)

end Mixdown.Effect.Rack
