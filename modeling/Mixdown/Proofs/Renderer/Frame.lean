import Mixdown.Proofs.Effect.Rack
import Mixdown.Proofs.Splitter.Filters

/-! Every frame runs all its commands, and the next frame goes on with the memories they leave. -/

namespace Mixdown.Renderer

open Splitter (Graph)

/-- The places that a renderer's effects and filters hold. -/
def places (renderer : Renderer) : List Place :=
  renderer.rack.places ++ renderer.graph.places (renderer.graph.chain 0)

/-- A renderer works on its own channels only, and has a buffer for each of them. -/
structure Proper (renderer : Renderer) : Prop where
  few : renderer.channels ≤ maxChannels
  rack : renderer.rack.Within renderer.channels
  graph : renderer.graph.Sound
  short : (renderer.graph.chain 0).length ≤ renderer.channels
  room : renderer.mixer.Room renderer.channels

/-- What a renderer issues for a frame, and issues again once the frame was answered. -/
structure Starts (renderer started : Renderer) (commands : List Command) : Prop where
  generates : renderer.generate = .ok (started, commands)
  issue : Issue renderer.channels renderer.mixer.states started.mixer.states renderer.places
    started.places commands
  mixer : started.mixer = { renderer.mixer with states := started.mixer.states }
  again : ∀ mixer : Mixer, mixer.Room renderer.channels →
    ∃ next, { started with mixer }.answer = .ok next ∧ next.Proper ∧ next.mixer = mixer ∧
      next.channels = renderer.channels ∧
      next.generate = .ok (next, commands.map Command.steady)

/-- A proper renderer issues the commands of a frame without a fault. -/
theorem Proper.starts {renderer : Renderer} (proper : renderer.Proper) :
    ∃ started commands, renderer.Starts started commands := by
  -- The stages claim their places first, and the filters behind them claim theirs from the rest.
  obtain ⟨rack, middle, stages, generates, issue, kept, again⟩ :=
    proper.rack.generate_eq renderer.double renderer.mixer.states
  have linked := proper.graph.linked
  obtain ⟨graph, left, filters, run, issueMore, links, shape, -, againMore⟩ :=
    Splitter.filterCommands_eq proper.few renderer.revision (linked.distinct 0) 0
      (by simpa using proper.short) renderer.graph (linked.inside 0) middle
  have sound := proper.graph.of_links links shape
  have chain := proper.graph.chain_of_links links
  refine ⟨{ renderer with rack, graph, mixer := { renderer.mixer with states := left } },
    stages ++ filters, ?_, ?_, rfl, fun mixer room => ?_⟩
  · simp only [generate, generates, ok_bind, run, pure_eq_ok]
  · simp only [places, chain]
    exact issue.append issueMore
  · -- Answering the guest advances the slots and latches volumes, and no place is given up.
    obtain ⟨latched, latch, after, same, filtering⟩ := sound.latch
    refine ⟨{ renderer with
        rack := (rack.advance.publish mixer.states).share, graph := latched, mixer },
      ?_, ⟨proper.few, kept mixer.states, after, ?_, room⟩, rfl, rfl, ?_⟩
    · simp only [answer, latch, ok_bind, pure_eq_ok]
    · simpa only [same, chain] using proper.short
    · have filters := againMore latched (filtering _) mixer.states
      simp only [generate, again, ok_bind, same, chain, filters, List.map_append, pure_eq_ok]

/-- Destinations along a chain issue at most as many commands as they have filters. -/
theorem length_filterCommands_le (revision : Revision) (buffer : Nat) (chain : List Nat)
    (graph : Graph) (states : States) :
    (filterCommands revision buffer chain graph states).2.2.length ≤
      Splitter.maxFilters * chain.length := by
  induction chain generalizing buffer graph states with
  | nil => exact Nat.zero_le _
  | cons place chain ih =>
    rw [List.length_cons, Nat.mul_succ]
    simp only [filterCommands]
    -- A place without a destination issues nothing, and the chain goes on behind it.
    split
    · exact Nat.le_trans (ih _ _ _) (Nat.le_add_right _ _)
    · next destination held =>
      rw [List.length_append, List.length_map, Nat.add_comm]
      exact Nat.add_le_add (ih _ _ _) (destination.length_commands_le _ _ _)

/-- A frame has at most one command for each channel of a slot and each filter of a destination. -/
theorem length_generate_le {renderer started : Renderer} {commands : List Command}
    (ran : renderer.generate = .ok (started, commands)) :
    commands.length ≤ maxChannels * renderer.rack.size +
      Splitter.maxFilters * (renderer.graph.chain 0).length := by
  obtain ⟨⟨rack, states, stages⟩, first, ran⟩ := bind_eq_ok.mp ran
  obtain ⟨⟨slots, left, issued⟩, generates, made⟩ := bind_eq_ok.mp first
  cases made
  cases ran
  -- The stages' commands come first, and behind them those of the chain.
  rw [List.length_append]
  exact Nat.add_le_add (Effect.Rack.length_generateFrom_le generates)
    (length_filterCommands_le _ _ _ _ _)

/-- A renderer is about to issue some commands, which will find some memories. -/
structure Ready (renderer : Renderer) (commands : List Command) (memories : List Memory) : Prop where
  proper : renderer.Proper
  loaded : ∃ started, renderer.Starts started commands ∧
    List.Forall₂ (Command.Loads started.mixer.states) commands memories
  distinct : (commands.map Command.place?).Nodup

/-- A proper renderer that holds no places is ready for its first frame. -/
theorem Proper.ready {renderer : Renderer} (proper : renderer.Proper)
    (fresh : renderer.places = []) : ∃ commands memories, renderer.Ready commands memories := by
  obtain ⟨started, commands, starts⟩ := proper.starts
  -- Nothing is held, so that all the memories are new and fresh.
  have issue := starts.issue
  rw [fresh] at issue
  obtain ⟨memories, loads⟩ := issue.loads
  exact ⟨commands, memories, proper, ⟨started, starts, loads⟩, issue.distinct⟩

namespace Ready

variable {renderer : Renderer} {commands : List Command} {memories : List Memory}

/-- What is issued depends on the states of a mixer only, and not on its buffers. -/
theorem remix (ready : renderer.Ready commands memories) {mixer : Mixer}
    (room : mixer.Room renderer.channels) (states : mixer.states = renderer.mixer.states) :
    { renderer with mixer }.Ready commands memories := by
  obtain ⟨⟨few, rack, graph, short, -⟩, ⟨started, starts, loads⟩, distinct⟩ := ready
  have issue := starts.issue
  rw [← states] at issue
  refine ⟨⟨few, rack, graph, short, room⟩,
    ⟨{ started with mixer := { mixer with states := started.mixer.states } },
      ⟨?_, issue, rfl, starts.again⟩, loads⟩, distinct⟩
  -- Commands are made from the rack, the graph and the states, so the run is the same one.
  have generates := starts.generates
  simp only [generate, states] at generates ⊢
  cases run : renderer.rack.generate 0 renderer.double renderer.mixer.states with
  | error fault => simp [run] at generates
  | ok issued =>
    rw [run] at generates
    simp only [ok_bind, pure_eq_ok, Except.ok.injEq, Prod.mk.injEq] at generates ⊢
    obtain ⟨rfl, rfl⟩ := generates
    exact ⟨rfl, rfl⟩

/-- A frame runs every command of a ready renderer, and leaves it ready for the next one. -/
theorem frame_eq (ready : renderer.Ready commands memories) :
    ∃ next, renderer.frame = .ok (next, ⟨commands.length, 0⟩) ∧
      next.Ready (commands.map Command.steady)
        (feed (series (commands.map (Command.device renderer.mixer.rate))) memories
          renderer.mixer.columns).1 ∧
      next.mixer.columns =
        (feed (series (commands.map (Command.device renderer.mixer.rate))) memories
          renderer.mixer.columns).2 ∧
      next.mixer.SameShape renderer.mixer ∧ next.channels = renderer.channels := by
  obtain ⟨proper, ⟨started, starts, loads⟩, distinct⟩ := ready
  have shape : started.mixer.SameShape renderer.mixer := by
    rw [starts.mixer]
    exact ⟨rfl, rfl, rfl, rfl, rfl⟩
  -- All commands run over the arena, which still has a buffer for each channel afterwards.
  have room := proper.room.of_shape shape
  obtain ⟨mixer, run, ran, columns, left, -⟩ := Mixer.processFrom_eq loads distinct
    (fun command here => (starts.issue.within command here).routed room) ⟨0, 0⟩
  obtain ⟨next, answers, properNext, mixed, channels, again⟩ :=
    starts.again mixer (room.of_shape ran)
  have states : started.mixer.columns = renderer.mixer.columns := by rw [starts.mixer]; rfl
  rw [states, shape.rate] at columns left
  refine ⟨next, ?_, ⟨properNext, ⟨next, ?_, ?_⟩, ?_⟩, ?_, ?_, channels⟩
  · simp only [frame, starts.generates, ok_bind, Mixer.process, run, answers, Nat.zero_add,
      pure_eq_ok]
  · -- The next frame issues the steady commands, as it is known to issue them again.
    obtain ⟨other, issued, startsNext⟩ := properNext.starts
    obtain ⟨rfl, rfl⟩ := Prod.mk.inj (Except.ok.inj (startsNext.generates.symm.trans again))
    exact startsNext
  · -- What each command has left is what the next frame's finds in its place.
    rw [mixed, List.forall₂_map_left_iff]
    exact left.imp fun _ _ leaves => leaves.loads
  · simpa only [List.map_map, Function.comp_def, Command.steady_place?] using distinct
  · rw [mixed, columns]
  · rw [mixed]
    exact ran.trans shape

end Ready

end Mixdown.Renderer
