import Mathlib.Data.List.TakeWhile
import Mathlib.Tactic.IntervalCases
import Mixdown.Proofs.Config.Section
import Mixdown.Proofs.Splitter.Filters
import Mixdown.Proofs.Splitter.Settings

/-! A graph that takes a configuration's section leads every channel through the filters. -/

namespace Mixdown

open Splitter (Graph Destination Operation)

namespace Splitter

/-- As many identifiers lie below a count as it says, unless it is negative as a signed number. -/
theorem Graph.identifiersBelow_size {count : Nat} (small : count < UInt32.size / 2) :
    (Graph.identifiersBelow count).size = count := by
  simp [Graph.identifiersBelow, small]

/-- A graph is set up anew for a revision with splitters, if some are asked for. -/
theorem Graph.allocate_eq (graph : Graph) {revision : Revision} (splitting : revision.hasSplitter)
    {splitters destinations : Nat} (asked : splitters ≠ 0) (askedToo : destinations ≠ 0) :
    graph.allocate revision splitters destinations =
      setUp ((identifiersBelow splitters).map .create) ((identifiersBelow destinations).map .create)
        revision.hasFreeLinking revision := by
  simp [allocate, splitting, asked, askedToo]

end Splitter

namespace Config

variable (config : Config) {channels : Nat}

/-- What a destination has been set to when it leads a channel to the mix of the same number. -/
structure Leads (channel : Nat) (old new : Destination) : Prop where
  inUse : new.inUse
  mix : new.mixId.toInt = channel
  volumes : ∀ buffer : Fin Splitter.maxVolumes,
    new.volumes.get buffer = if buffer.val = channel then 1 else 0
  /-- The filters of the configuration come first and are enabled. -/
  listed : config.revision.hasFilterRecords → ∀ (index : Fin Splitter.maxFilters)
    (filter : DestinationFilter), config.filters[index.val]? = some filter →
      (new.filters.get index).enabled = 1 ∧
        (new.filters.get index).numerator = filter.numerator ∧
        (new.filters.get index).denominator = filter.denominator
  /-- Behind them come filters of zeros, which are not enabled. -/
  unlisted : config.revision.hasFilterRecords → ∀ index : Fin Splitter.maxFilters,
    config.filters.length ≤ index.val → (new.filters.get index).enabled = 0 ∧
      (new.filters.get index).numerator = .replicate _ 0 ∧
      (new.filters.get index).denominator = .replicate _ 0
  /-- Older records carry no filters. -/
  kept : config.revision.hasFilterRecords = false → new.filters = old.filters

/-- A graph with enough destinations takes those of all channels for its one splitter. -/
theorem listing_places (few : channels ≤ maxChannels) {graph : Graph}
    (splitters : graph.splitters.size = 1) (enough : channels ≤ graph.destinations.size) :
    (listing channels).places graph = List.range channels := by
  simp only [maxChannels] at few
  -- There are at most six channels, so that the lists can be compared one by one.
  have ids : (listing channels).ids.map UInt32.toNat = List.range channels := by
    interval_cases channels <;> rfl
  have distinct : (List.range channels).eraseDups = List.range channels := by
    interval_cases channels <;> rfl
  -- The one splitter's share of the destinations is all of them.
  have share : (listing channels).ids.take (min (listing channels).ids.length
      (graph.destinations.size / graph.splitters.size)) = (listing channels).ids :=
    List.take_of_length_le (by simp [listing, splitters, enough])
  have there : (List.range channels).takeWhile (· < graph.destinations.size) =
      List.range channels :=
    List.takeWhile_eq_self_iff.mpr fun place here =>
      decide_eq_true ((List.mem_range.mp here).trans_le enough)
  simp only [Splitter.Listing.places, share, ite_self, ids, there, distinct]

/-- A configuration's section has one record for the destination of each channel. -/
theorem recordsFor_sent (few : channels ≤ maxChannels) (place : Nat) :
    Splitter.recordsFor ((config.sent channels).settings.map
        Splitter.DestinationRecord.setting) place =
      if place < channels then [config.destinationRecord place] else [] := by
  -- Each setting names the destination of its own channel.
  have numbered : (config.sent channels).settings.map Splitter.DestinationRecord.setting =
      (List.range channels).map fun index => (index, config.destinationRecord index) := by
    simp only [sent, List.map_map]
    refine List.map_congr_left fun index here => Prod.ext ?_ rfl
    have small : index < 2 ^ 31 := by
      have within := List.mem_range.mp here
      simp only [maxChannels] at few
      omega
    exact (congrArg Int.toNat (Int32.toInt_ofNat_of_lt small)).trans (Int.toNat_natCast index)
  rw [numbered, Splitter.recordsFor_range]

/-- A graph with one splitter and a destination for each channel links these to the splitter. -/
theorem update_sent (positive : 0 < channels) (few : channels ≤ maxChannels)
    {graph : Graph} (sound : graph.Sound) (splitters : graph.splitters.size = 1)
    (enough : channels ≤ graph.destinations.size)
    (filtered : graph.filtered = config.revision.hasFilterRecords) :
    ∃ changed, graph.update ((config.sent channels).encode.padTo (config.sent channels).length) =
        .ok ((config.sent channels).length, changed) ∧
      changed.chain 0 = List.range channels ∧ changed.Sound ∧ changed.shape = graph.shape ∧
      changed.destinations.map Destination.states = graph.destinations.map Destination.states ∧
      ∀ place : Nat, changed.destinations[place]?.map Destination.detach =
        graph.destinations[place]?.map fun destination => destination.detach.acceptAll
          (if place < channels then [config.destinationRecord place] else []) := by
  -- The section is well-formed for any graph of this size, whatever its chains are.
  obtain ⟨whole, short⟩ := config.sent_length few
  have sizes : graph.splitters.size ≠ 0 ∧ graph.destinations.size ≠ 0 := by omega
  have used : graph.isUsed := by
    simpa [Graph.isUsed, Array.isEmpty] using sizes
  have formed : (config.sent channels).WellFormed graph.splitters.size graph.destinations.size
      graph.filtered := by
    rw [splitters, filtered]
    exact config.sent_wellFormed few enough
  have room : ((config.sent channels).encode.padTo (config.sent channels).length).length <
      addressSpace / 2 := by rwa [Bytes.length_padTo whole]
  have scanned : graph.scan? ((config.sent channels).encode.padTo (config.sent channels).length) =
      some _ := formed.readable.scan sizes.1 sizes.2 _
  obtain ⟨changed, run, chains, after, states⟩ := sound.update_section used formed room
  refine ⟨changed, run, ?_, after, (sound.of_update room run).2, states, fun place => ?_⟩
  · rw [chains]
    simp only [Splitter.Section.chains, sent, List.foldl_cons, List.foldl_nil,
      listing_places few splitters enough]
    rfl
  · rw [sound.update_settings room scanned run place, config.recordsFor_sent few]
    -- No record asks for what only some revisions grant.
    have granted : graph.granted (config.destinationRecord place) =
        config.destinationRecord place := by
      simp only [Graph.granted]
      split <;> rfl
    split
    · rw [List.map_cons, granted, List.map_nil]
    · rfl

end Config

end Mixdown
