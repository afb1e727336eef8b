import Mathlib.Data.List.FinRange
import Mixdown.Proofs.Allotment
import Mixdown.Proofs.Splitter.Runs
import Mixdown.Proofs.Steady
import Mixdown.Renderer

/-! Destinations along a chain issue the commands of their filters, and the same after a frame. -/

namespace Mixdown.Splitter

namespace Destination

variable (buffer : Int16)

/-- What a destination's commands are made from and go on with. -/
def filtering (destination : Destination) :
    Vector Biquad.FloatCoefficients maxFilters × Vector (Option Nat) maxFilters ×
      Vector Bool maxFilters :=
  (destination.filters, destination.states, destination.started)

/-- Exactly the enabled ones of some filters have started, and these have places. -/
def Running (destination : Destination) (indices : List (Fin maxFilters)) : Prop :=
  ∀ index ∈ indices, destination.started.get index = (destination.filters.get index).isEnabled ∧
    ((destination.filters.get index).isEnabled → (destination.states.get index).isSome)

/-- The enabled ones of some filters. -/
def enabled (destination : Destination) (indices : List (Fin maxFilters)) :
    List (Fin maxFilters) :=
  indices.filter fun index => (destination.filters.get index).isEnabled

/-- The filters' places come from the table, whatever the other tables hold. -/
theorem commandsFor_claims (indices : List (Fin maxFilters)) (destination : Destination)
    (table : Array Biquad.State) (others : States) :
    Claims { others with biquad := table }
      { others with biquad := (commandsFor buffer indices destination table).2.1 }
      (filterPlaces destination.states)
      (filterPlaces (commandsFor buffer indices destination table).1.states) := by
  -- Only enabled filters are allotted places, each from the table that the one before it has
  -- left.
  induction indices generalizing destination table with
  | nil => exact .refl _ _
  | cons index indices ih =>
    simp only [commandsFor]
    split
    · exact (allot_claims index others table).trans (ih _ _)
    · exact ih _ _

/-- A filter's command depends on the destination's filters and on whether it has started. -/
theorem command_congr (destination other : Destination)
    (filters : other.filters = destination.filters) {index : Fin maxFilters}
    (started : other.started.get index = destination.started.get index) (place : Nat) :
    other.command buffer index place = destination.command buffer index place := by
  have started : other.started[index] = destination.started[index] := started
  simp only [command, filters, started]

/-- Enabled ones of some filters have got places and started, the others have not. -/
structure Started (destination : Destination) (indices : List (Fin maxFilters))
    (after : Destination) (commands : List BiquadCommand) : Prop where
  whole : after = { destination with states := after.states, started := after.started }
  kept : ∀ index ∉ indices, after.states.get index = destination.states.get index ∧
    after.started.get index = destination.started.get index
  running : after.Running indices
  commands : commands = (destination.enabled indices).map fun index =>
    destination.command buffer index ((after.states.get index).getD 0)

/-- A filter that is set to its byte's word goes in front of others that start after it. -/
theorem Started.cons {destination middle after : Destination} {index : Fin maxFilters}
    {rest : List (Fin maxFilters)} {commands : List BiquadCommand}
    (later : Started buffer middle rest after commands) (fresh : index ∉ rest)
    (whole : middle = { destination with states := middle.states, started := middle.started })
    (others : ∀ other, other ≠ index →
      middle.states.get other = destination.states.get other ∧
        middle.started.get other = destination.started.get other)
    (own : middle.started.get index = (destination.filters.get index).isEnabled ∧
      ((destination.filters.get index).isEnabled → (middle.states.get index).isSome)) :
    Started buffer destination (index :: rest) after
      (if (destination.filters.get index).isEnabled then
        destination.command buffer index ((middle.states.get index).getD 0) :: commands
      else commands) := by
  have filters : middle.filters = destination.filters := by rw [whole]
  have kept := later.kept index fresh
  have same : after.filters = destination.filters := by rw [later.whole, filters]
  -- The commands of the others are made from filters and starts that this one leaves alone.
  have behind : commands = (destination.enabled rest).map fun other =>
      destination.command buffer other ((after.states.get other).getD 0) := by
    rw [later.commands, enabled, filters]
    refine List.map_congr_left fun other here => ?_
    have apart : other ≠ index := by
      rintro rfl
      exact fresh (List.mem_of_mem_filter here)
    exact destination.command_congr buffer middle filters (others other apart).2 _
  constructor
  case whole =>
    rw [later.whole, whole]
  case kept =>
    intro other away
    obtain ⟨apart, away⟩ := not_or.mp (mt List.mem_cons.mpr away)
    obtain ⟨place, started⟩ := later.kept other away
    rw [place, started]
    exact others other apart
  case running =>
    intro other here
    rcases List.mem_cons.mp here with rfl | here
    · rw [kept.1, kept.2, same]
      exact own
    · exact later.running other here
  case commands =>
    rw [← kept.1, behind]
    cases on : (destination.filters.get index).isEnabled with
    | true => simp only [if_true, enabled, List.filter_cons, on, List.map_cons]
    | false => simp only [Bool.false_eq_true, if_false, enabled, List.filter_cons, on]

/-- Enabled filters get places for their states and start, and the others do not. -/
theorem commandsFor_started {indices : List (Fin maxFilters)} (distinct : indices.Nodup)
    (destination : Destination) (table : Array Biquad.State) :
    Started buffer destination indices (commandsFor buffer indices destination table).1
      (commandsFor buffer indices destination table).2.2 := by
  -- The rest of the filters are gone through in the destination that the first one has left.
  induction indices generalizing destination table with
  | nil => exact ⟨rfl, fun _ _ => ⟨rfl, rfl⟩, fun _ here => (nomatch here), rfl⟩
  | cons index rest ih =>
    obtain ⟨fresh, distinct⟩ := List.nodup_cons.mp distinct
    cases on : (destination.filters.get index).isEnabled with
    | true =>
      have taken : destination.filters[index].isEnabled = true := on
      let place := (allot destination.states[index] .initial table).1
      let middle : Destination :=
        { destination with
          states := destination.states.set index (some place)
          started := destination.started.set index true }
      have own : middle.states.get index = some place := get_set_self _ _ _
      have later : Started buffer destination (index :: rest) _ _ :=
        (ih distinct middle (allot destination.states[index] .initial table).2).cons buffer fresh rfl
        (fun other apart => ⟨get_set_ne _ apart _, get_set_ne _ apart _⟩)
        ⟨by rw [on]; exact get_set_self _ _ _, fun _ => by rw [own]; rfl⟩
      rw [on, own] at later
      simp only [commandsFor, taken, if_true]
      exact later
    | false =>
      have passed : destination.filters[index].isEnabled = false := on
      let middle : Destination :=
        { destination with started := destination.started.set index false }
      have later : Started buffer destination (index :: rest) _ _ :=
        (ih distinct middle table).cons buffer fresh rfl
        (fun other apart => ⟨rfl, get_set_ne _ apart _⟩)
        ⟨by rw [on]; exact get_set_self _ _ _, fun enabled => by rw [on] at enabled; cases enabled⟩
      rw [on] at later
      simp only [commandsFor, passed, Bool.false_eq_true, if_false]
      exact later

/-- Filters that run keep their places and go on. -/
theorem commandsFor_running {indices : List (Fin maxFilters)} {destination : Destination}
    (running : destination.Running indices) (table : Array Biquad.State) :
    commandsFor buffer indices destination table =
      (destination, table, (destination.enabled indices).map fun index =>
        { destination.command buffer index ((destination.states.get index).getD 0) with
          reset := false }) := by
  induction indices with
  | nil => rfl
  | cons index rest ih =>
    obtain ⟨started, placed⟩ := running index (by simp)
    have later := ih fun other here => running other (by simp [here])
    -- Setting what is set already changes nothing, for starts as for places.
    have kept := set_get destination.started started
    cases on : (destination.filters.get index).isEnabled with
    | true =>
      obtain ⟨place, found⟩ := Option.isSome_iff_exists.mp (placed on)
      have taken : destination.filters[index].isEnabled = true := on
      have owned : destination.states[index] = some place := found
      have begun : destination.started[index] = true := started.trans on
      rw [on] at kept
      simp only [commandsFor, taken, if_true, owned, allot, set_get destination.states found, kept,
        later, enabled, List.filter_cons, on, List.map_cons, found, Option.getD_some]
      simp only [command, begun, Bool.not_true]
    | false =>
      have passed : destination.filters[index].isEnabled = false := on
      rw [on] at kept
      simp only [commandsFor, passed, Bool.false_eq_true, if_false, kept, later, enabled,
        List.filter_cons, on]

/-- The commands of filters that run depend on what commands are made from only. -/
theorem commands_running {destination later : Destination}
    (running : destination.Running (List.finRange maxFilters))
    (same : later.filtering = destination.filtering) (table : Array Biquad.State) :
    commandsFor buffer (List.finRange maxFilters) later table =
      (later, table, (destination.enabled (List.finRange maxFilters)).map fun index =>
        { destination.command buffer index ((destination.states.get index).getD 0) with
          reset := false }) := by
  -- The later destination has the same filters, states and flags, which is all that is read.
  simp only [filtering, Prod.mk.injEq] at same
  obtain ⟨filters, states, started⟩ := same
  have running : later.Running (List.finRange maxFilters) := by
    simpa only [Running, filters, states, started] using running
  rw [commandsFor_running buffer running]
  simp only [enabled, command, filters, states]

/-- A destination's filters keep their links and places apart from the filters themselves. -/
theorem commands_eq {channels : Nat} (named : Names channels buffer) (revision : Revision)
    (destination : Destination) (states : States) :
    ∃ after table commands,
      destination.commands revision buffer states.biquad = (after, table, commands) ∧
      Issue channels states { states with biquad := table } (filterPlaces destination.states)
        (filterPlaces after.states) (commands.map .biquad) ∧
      ∀ later : Destination, later.filtering = after.filtering → ∀ table,
        later.commands revision buffer table =
          (later, table, commands.map fun command => { command with reset := false }) := by
  by_cases filtered : revision.hasFloatFilters
  · -- The filters start in their first frame and go on from where they started.
    have claims := commandsFor_claims buffer (List.finRange maxFilters) destination states.biquad
      states
    have started := commandsFor_started buffer (List.nodup_finRange maxFilters) destination
      states.biquad
    rcases ran : commandsFor buffer (List.finRange maxFilters) destination states.biquad with
      ⟨after, left, commands⟩
    simp only [ran] at claims started
    have same : after.filters = destination.filters := by rw [started.whole]
    -- A filter that is enabled has been allotted its place by now.
    have placed : ∀ index ∈ destination.enabled (List.finRange maxFilters),
        (after.states.get index).isSome := by
      intro index here
      have on := (List.mem_filter.mp here).2
      rw [← same] at on
      exact (started.running index (List.mem_finRange index)).2 on
    refine ⟨after, left, commands, ?_, ?_, ?_⟩
    · rw [Destination.commands, if_pos filtered, ran]
    · rw [started.commands, List.map_map]
      exact .filters claims List.filter_sublist placed (fun _ _ => rfl) fun _ _ _ => ⟨named, named⟩
    · intro later alike table
      rw [Destination.commands, if_pos filtered, commands_running buffer started.running alike,
        started.commands, List.map_map, enabled, enabled, same]
      simp only [command, same, Function.comp_def]
  · -- Earlier revisions know no such filters and issue nothing.
    refine ⟨destination, states.biquad, [], ?_, .none states _, fun later _ table => ?_⟩ <;>
      simp only [Destination.commands, filtered, if_false, List.map_nil, Bool.false_eq_true]

/-- A destination issues at most one command for each filter that is gone through. -/
theorem length_commandsFor_le (buffer : Int16) (indices : List (Fin maxFilters))
    (destination : Destination) (table : Array Biquad.State) :
    (commandsFor buffer indices destination table).2.2.length ≤ indices.length := by
  -- A filter that is not enabled is gone through without a command.
  induction indices generalizing destination table with
  | nil => exact Nat.le_refl 0
  | cons index indices ih =>
    simp only [commandsFor]
    split
    · exact Nat.succ_le_succ (ih _ _)
    · exact Nat.le_succ_of_le (ih _ _)

/-- A destination issues at most as many commands as it has filters. -/
theorem length_commands_le (destination : Destination) (revision : Revision) (buffer : Int16)
    (table : Array Biquad.State) :
    (destination.commands revision buffer table).2.2.length ≤ maxFilters := by
  rw [commands]
  split
  · have count := length_commandsFor_le buffer (List.finRange maxFilters) destination table
    rwa [List.length_finRange] at count
  · exact Nat.zero_le _

end Destination

namespace Graph

/-- The places that the destinations of a chain hold. -/
def places (graph : Graph) (chain : List Nat) : List Place :=
  chain.flatMap fun place =>
    (graph.destinations[place]?.map fun destination => filterPlaces destination.states).getD []

/-- The places along a chain are those of its first destination and of all behind it. -/
theorem places_cons {graph : Graph} {place : Nat} {destination : Destination}
    (held : graph.destinations[place]? = some destination) (rest : List Nat) :
    graph.places (place :: rest) = filterPlaces destination.states ++ graph.places rest := by
  simp only [places, List.flatMap_cons, held, Option.map_some, Option.getD_some]

/-- The places along a chain are those of the destinations on it. -/
theorem places_congr {graph other : Graph} {chain : List Nat}
    (same : ∀ place ∈ chain, other.destinations[place]? = graph.destinations[place]?) :
    other.places chain = graph.places chain := by
  rw [places, places, List.flatMap, List.flatMap]
  congr 1
  exact List.map_congr_left fun place here => by rw [same place here]

/-- Two graphs make the same commands along a chain. -/
def SameFiltering (chain : List Nat) (later graph : Graph) : Prop :=
  ∀ place ∈ chain, later.destinations[place]?.map Destination.filtering =
    graph.destinations[place]?.map Destination.filtering

end Graph

namespace Graph

/-- Graphs with the same links have the same chains. -/
theorem Sound.chain_of_links {graph changed : Graph} (sound : graph.Sound)
    (links : changed.links = graph.links) : changed.chain = graph.chain := by
  obtain ⟨chains, represents⟩ := sound.represented
  funext splitter
  rw [represents.chain_eq, (represents.of_links links).chain_eq]

/-- Latching a sound graph leaves its chains and what commands are made from. -/
theorem Sound.latch {graph : Graph} (sound : graph.Sound) :
    ∃ latched, graph.latch = .ok latched ∧ latched.Sound ∧ latched.chain = graph.chain ∧
      ∀ chain, SameFiltering chain latched graph := by
  obtain ⟨chains, represents⟩ := sound.represented
  -- Latching moves volumes only, which none of the three views looks at.
  refine ⟨graph.latched, latch_eq represents,
    sound.of_links graph.latched_links graph.latched_shape,
    sound.chain_of_links graph.latched_links, fun chain place here => ?_⟩
  rw [← Array.getElem?_map, latched_look (fun _ => rfl), Array.getElem?_map]

end Graph

/-- Destinations along a chain issue their commands, the first one those over the first buffer. -/
theorem filterCommands_eq {channels : Nat} (few : channels ≤ maxChannels) (revision : Revision)
    {chain : List Nat} (distinct : chain.Nodup) (buffer : Nat)
    (room : buffer + chain.length ≤ channels) (graph : Graph)
    (inside : ∀ place ∈ chain, place < graph.destinations.size) (states : States) :
    ∃ after left commands,
      Renderer.filterCommands revision buffer chain graph states = (after, left, commands) ∧
      Issue channels states left (graph.places chain) (after.places chain) commands ∧
      after.links = graph.links ∧ after.shape = graph.shape ∧
      (∀ place, place ∉ chain → after.destinations[place]? = graph.destinations[place]?) ∧
      ∀ later : Graph, Graph.SameFiltering chain later after → ∀ states,
        Renderer.filterCommands revision buffer chain later states =
          (later, states, commands.map Command.steady) := by
  induction chain generalizing buffer graph states with
  | nil =>
    exact ⟨graph, states, [], rfl, .none _ _, rfl, rfl, fun _ _ => rfl, fun _ _ _ => rfl⟩
  | cons place rest ih =>
    obtain ⟨fresh, distinct⟩ := List.nodup_cons.mp distinct
    obtain ⟨here, behind⟩ := List.forall_mem_cons.mp inside
    rw [List.length_cons] at room
    have held : graph.destinations[place]? = some graph.destinations[place] := by simp [here]
    -- The buffer's number is small enough for the index that carries it.
    have named : Names channels (Int16.ofNat buffer) := by
      have small : buffer < 2 ^ 15 := by
        simp only [maxChannels] at few
        omega
      rw [Names, Int16.toInt_ofNat_of_lt small]
      omega
    obtain ⟨first, table, commands, generates, issue, again⟩ :=
      Destination.commands_eq (Int16.ofNat buffer) named revision graph.destinations[place] states
    have bond := graph.destinations[place].commands_bond revision (Int16.ofNat buffer) states.biquad
    rw [generates] at bond
    let middle : Graph :=
      { graph with destinations := graph.destinations.setIfInBounds place first }
    -- The other destinations are those of before, on the chain and elsewhere.
    have others : ∀ other, other ≠ place → middle.destinations[other]? = graph.destinations[other]? :=
      fun other apart => Array.getElem?_setIfInBounds_ne apart.symm
    have own : middle.destinations[place]? = some first := Array.getElem?_setIfInBounds_self_of_lt here
    obtain ⟨after, left, more, run, issueMore, links, shape, elsewhere, againMore⟩ :=
      ih distinct (buffer + 1) (by omega) middle (by simpa [middle] using behind)
        { states with biquad := table }
    have kept : after.destinations[place]? = some first := by rw [elsewhere place fresh, own]
    refine ⟨after, left, commands.map .biquad ++ more, ?_, ?_, ?_, ?_, ?_, ?_⟩
    · simp only [Renderer.filterCommands, held, generates]
      rw [show Renderer.filterCommands revision (buffer + 1) rest _ _ = _ from run]
    · rw [Graph.places_cons held, Graph.places_cons kept]
      refine issue.append ?_
      rw [← Graph.places_congr fun other here => others other fun same => fresh (same ▸ here)]
      exact issueMore
    · rw [links]
      simp only [Graph.links, middle, map_set_same Destination.bond held bond.1]
    · rw [shape]
      simp only [Graph.shape, middle, map_set_same Destination.id held bond.2]
    · intro other away
      obtain ⟨apart, away⟩ := not_or.mp (mt List.mem_cons.mpr away)
      rw [elsewhere other away, others other apart]
    · -- A later graph makes the first destination's commands from the same filters and places.
      intro later same states
      obtain ⟨same, behind⟩ := List.forall_mem_cons.mp same
      rw [kept, Option.map_some] at same
      obtain ⟨found, there, same⟩ := Option.map_eq_some_iff.mp same
      have still : later.destinations.setIfInBounds place found = later.destinations := by
        obtain ⟨inside, rfl⟩ := Array.getElem?_eq_some_iff.mp there
        rw [Array.setIfInBounds_def, dif_pos inside, Array.set_getElem_self]
      simp only [Renderer.filterCommands, there, again found same, still, againMore later behind,
        List.map_append, List.map_map]
      rfl

end Mixdown.Splitter
