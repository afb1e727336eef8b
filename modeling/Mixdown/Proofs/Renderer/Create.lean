import Mixdown.Proofs.Renderer.Graph
import Mixdown.Proofs.Renderer.Rack
import Mixdown.Proofs.Renderer.Render

/-! A session that a configuration describes is created and ready to play, whatever its frames. -/

namespace Mixdown

/-- A configuration describes the same session but for the length of its frames. -/
structure Config.SameSession (other config : Config) : Prop where
  revision : other.revision = config.revision
  double : other.double = config.double
  stages : other.stages = config.stages
  filters : other.filters = config.filters

/-- A configuration describes its own session. -/
theorem Config.SameSession.refl (config : Config) : config.SameSession config := ⟨rfl, rfl, rfl, rfl⟩

namespace Config.SameSession

variable {other config : Config}

/-- The rack of a session does not depend on its frames. -/
theorem createRack_eq (same : other.SameSession config) (channels : Nat) :
    Renderer.createRack other channels = Renderer.createRack config channels := by
  simp only [Renderer.createRack, Config.records, same.revision, same.stages]

/-- The graph of a session does not depend on its frames. -/
theorem createGraph_eq (same : other.SameSession config) (channels : Nat) :
    Renderer.createGraph other channels = Renderer.createGraph config channels := by
  -- Neither the records nor the section look at the length of a frame.
  have records : other.destinationRecord = config.destinationRecord := by
    funext channel
    simp only [Config.destinationRecord, Config.destinationFilters, same.revision, same.filters]
  simp only [Renderer.createGraph, Config.splitterSection, records, same.revision, same.filters]

end Config.SameSession

namespace Renderer

/-- The mixer of a session fits into memory and has a buffer for each channel. -/
theorem createMixer_eq (config : Config) {channels : Nat} (few : channels ≤ maxChannels) :
    ∃ mixer, Mixer.create channels config.frame = .ok mixer ∧ mixer.Room channels ∧
      mixer.frame = config.frame ∧ mixer.rate = defaultRate ∧ mixer.states = .empty := by
  -- A frame's length fits four bytes and channels are few, so their product is far from the end.
  have bound : channels * config.frame ≤ maxChannels * UInt32.size :=
    Nat.mul_le_mul few (Nat.le_of_lt config.frame_fits)
  have enough : channels * config.frame * Arena.sampleSize < addressSpace / 2 :=
    Nat.lt_of_le_of_lt (Nat.mul_le_mul_right _ bound) (by decide)
  have fits : channels * config.frame < addressSpace := Nat.lt_of_le_of_lt bound (by decide)
  exact ⟨_, Mixer.create_eq enough,
    ⟨config.frame_pos, rfl, rfl, Array.size_replicate, fits⟩, rfl, rfl, rfl⟩

/-- The most commands that a frame of a session can have. -/
def commandBound (config : Config) (channels : Nat) : Nat :=
  maxChannels * config.stages.length + Splitter.maxFilters * channels

/-- Every configuration's session is created, and plays alike whatever its frames. -/
theorem create_plays (config : Config) {channels : Nat} (positive : 0 < channels)
    (few : channels ≤ maxChannels) :
    ∃ devices memories, devices.length ≤ commandBound config channels ∧
      ∀ other : Config, other.SameSession config →
        ∃ renderer, create other channels = .ok renderer ∧ renderer.Plays devices memories ∧
          renderer.mixer.frame = other.frame ∧ renderer.channels = channels := by
  -- The rack and the graph are those of all sessions alike, and only the mixer has the frame's
  -- length.
  obtain ⟨rack, racked, slots⟩ := createRack_eq config positive few
  obtain ⟨graph, linked, sound, chain, bare⟩ := createGraph_eq config positive few
  obtain ⟨first, mixed, room, -, rate, states⟩ := createMixer_eq config few
  let renderer : Renderer :=
    { revision := config.revision, rack, graph, mixer := first, channels, double := config.double }
  -- The chain leads to one destination for each channel at most.
  have short : (graph.chain 0).length ≤ channels := by
    rw [chain, chainOf]
    split <;> simp
  have proper : renderer.Proper := by
    refine ⟨few, fun slot here => ?_, sound, short, room⟩
    rw [show renderer.rack.slots = config.slots channels from slots] at here
    exact (slots_within config few slot here).1
  have fresh : renderer.places = [] := by
    -- Nothing has run, so neither slots nor destinations hold a place yet.
    have slotless : rack.places = [] := by
      refine List.flatMap_eq_nil_iff.mpr fun slot here => ?_
      rw [slots] at here
      exact (slots_within config few slot here).2
    simp only [places, renderer, slotless, List.nil_append]
    exact Splitter.Graph.places_eq_nil bare _
  obtain ⟨commands, memories, ready⟩ := proper.ready fresh
  have bound : commands.length ≤ commandBound config channels := by
    -- There is a slot for every stage.
    have size : renderer.rack.size = config.stages.length := by
      rw [Effect.Rack.size, show renderer.rack.slots = config.slots channels from slots,
        Config.slots, List.length_map, List.length_zipIdx]
    obtain ⟨started, starts, -⟩ := ready.loaded
    have count := length_generate_le starts.generates
    rw [size] at count
    exact Nat.le_trans count (Nat.add_le_add_left (Nat.mul_le_mul_left _ short) _)
  refine ⟨commands.map (Command.device defaultRate), memories, ?_, fun other same => ?_⟩
  · rwa [List.length_map]
  -- Another length of the frames makes another mixer and changes nothing else.
  obtain ⟨mixer, made, otherRoom, frame, otherRate, otherStates⟩ := createMixer_eq other few
  refine ⟨{ renderer with mixer }, ?_, ⟨commands, ready.remix otherRoom ?_, ?_⟩, frame, rfl⟩
  · simp only [create, same.createRack_eq, racked, same.createGraph_eq, linked, made, ok_bind,
      lift_ok, pure_eq_ok, same.revision, same.double, renderer]
  · rw [otherStates]
    exact states.symm
  · simp only [otherRate]

end Renderer

end Mixdown
