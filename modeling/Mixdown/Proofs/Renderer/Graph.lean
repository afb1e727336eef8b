import Mixdown.Proofs.Config.Destinations

/-! The graph of a session leads every channel to its own destination, if it leads any. -/

namespace Mixdown

open Splitter (Graph)

namespace Splitter

/-- Destinations hold no places while none of them has a state. -/
theorem Graph.places_eq_nil {graph : Graph}
    (bare : ∀ destination ∈ graph.destinations, destination.states = .replicate _ none)
    (chain : List Nat) : graph.places chain = [] := by
  -- Neither a destination without states nor a place without a destination contributes any.
  refine List.flatMap_eq_nil_iff.mpr fun place _ => ?_
  cases held : graph.destinations[place]? with
  | none => rfl
  | some destination =>
    rw [Option.map_some, bare destination (Array.mem_of_getElem? held)]
    rfl

end Splitter

namespace Renderer

variable (config : Config) {channels : Nat}

/-- The destinations that the channels of a session are led to in turn. -/
def chainOf (config : Config) (channels : Nat) : List Nat :=
  if config.filters.isEmpty || !config.revision.hasSplitter then [] else List.range channels

/-- The graph of a session is created, with chains in order and without any states yet. -/
theorem createGraph_eq (positive : 0 < channels) (few : channels ≤ maxChannels) :
    ∃ graph, createGraph config channels = .ok graph ∧ graph.Sound ∧
      graph.chain 0 = chainOf config channels ∧
      ∀ destination ∈ graph.destinations, destination.states = .replicate _ none := by
  by_cases empty : config.filters.isEmpty
  · -- Without filters the session needs no graph.
    refine ⟨.empty, ?_, Graph.sound_empty, ?_, by simp [Graph.empty]⟩
    · simp only [createGraph, empty, if_true]
      rfl
    · simp only [chainOf, empty, Bool.true_or, if_true]
      rfl
  cases old : !config.revision.hasSplitter with
  | true =>
    -- The revision knows no splitters, so that none are allocated.
    have unused : Graph.empty.allocate config.revision 1 channels = .empty := by
      simp only [Graph.allocate, old, Bool.true_or, if_true]
    refine ⟨.empty, ?_, Graph.sound_empty, ?_, by simp [Graph.empty]⟩
    · simp only [createGraph, empty, unused]
      rfl
    · simp only [chainOf, old, Bool.or_true, if_true]
      rfl
  | false =>
    -- One splitter and a destination for every channel are allocated, and the section links them.
    have allocated : Graph.empty.allocate config.revision 1 channels =
        Graph.setUp ((Graph.identifiersBelow 1).map .create)
          ((Graph.identifiersBelow channels).map .create) config.revision.hasFreeLinking
          config.revision :=
      Graph.empty.allocate_eq (by simpa using old) (by decide) (Nat.ne_of_gt positive)
    have small : channels < UInt32.size / 2 := by
      simp only [maxChannels, UInt32.size] at few ⊢
      omega
    have splitters : (Graph.empty.allocate config.revision 1 channels).splitters.size = 1 := by
      rw [allocated, Graph.setUp, Array.size_map, Graph.identifiersBelow_size (by decide)]
    have destinations :
        (Graph.empty.allocate config.revision 1 channels).destinations.size = channels := by
      rw [allocated, Graph.setUp, Array.size_map, Graph.identifiersBelow_size small]
    obtain ⟨graph, run, chain, sound, -, states, -⟩ := config.update_sent positive few
      (Graph.sound_empty.allocate config.revision 1 channels) splitters destinations.ge
      (by rw [allocated]; rfl)
    refine ⟨graph, ?_, sound, ?_, ?_⟩
    · have used : (Graph.empty.allocate config.revision 1 channels).isUsed := by
        simp [Graph.isUsed, Array.isEmpty, splitters, destinations, Nat.ne_of_gt positive]
      -- The graph takes all bytes of the section, and no more are expected of it.
      have bytes := Bytes.length_padTo (Config.sent_length config few).1
      simp only [createGraph, empty, used, Bool.not_true, Bool.false_eq_true, if_false,
        Config.splitterSection_eq config positive few, Except.mapError, ok_bind, run, lift_ok,
        bytes, if_true, pure_eq_ok]
    · simp only [chainOf, empty, old, Bool.false_or, Bool.false_eq_true, if_false, chain]
    · intro destination here
      -- A section sets no states, and those of new destinations are empty.
      have here : destination.states ∈ graph.destinations.map Splitter.Destination.states :=
        Array.mem_map.mpr ⟨destination, here, rfl⟩
      rw [states, allocated, Graph.setUp, Array.map_map] at here
      obtain ⟨id, -, same⟩ := Array.mem_map.mp here
      exact same.symm

end Renderer

end Mixdown
