import Mixdown.Proofs.Splitter.Latch

/-! Every run of operations on a graph succeeds and keeps its chains in order. -/

namespace Mixdown.Splitter

/-- What can be done to a single destination. -/
inductive Edit where
  | mark
  | latch
  | clearVolumes
  | setVolume (buffer : Fin maxVolumes) (volume : Single)
  | setFilter (index : Fin maxFilters) (filter : Biquad.FloatCoefficients)
  | receive (record : DestinationRecord)
  /-- The filters' commands are made for a mix buffer, with states from the given table. -/
  | command (revision : Revision) (buffer : Int16) (table : Array Biquad.State)

/-- What can be done to a graph. -/
inductive Operation where
  | allocate (revision : Revision) (splitters destinations : UInt32)
  | update (bytes : Bytes)
  | latch
  | clearNew
  | edit (place : Nat) (change : Edit)

/-- A destination after an edit. -/
def Edit.apply (destination : Destination) : Edit → Except Fault Destination
  | mark => .ok destination.mark
  | latch => .ok destination.latch
  | clearVolumes => .ok destination.clearVolumes
  | setVolume buffer volume => destination.setVolume buffer volume
  | setFilter index filter => destination.setFilter index filter
  | receive record => .ok (destination.receive record)
  | command revision buffer table => .ok (destination.commands revision buffer table).1

/-- A graph after an operation; a destination that is not there cannot be edited. -/
def Operation.apply (graph : Graph) : Operation → Except Fault Graph
  | allocate revision splitters destinations =>
    .ok (graph.allocate revision splitters.toNat destinations.toNat)
  | update bytes => do
    let (_, graph) ← graph.update bytes
    pure graph
  | latch => graph.latch
  | clearNew => .ok graph.clearNew
  | edit place change =>
    match graph.destinations[place]? with
    | none => .ok graph
    | some destination => do
      let destination ← change.apply destination
      pure { graph with destinations := graph.destinations.setIfInBounds place destination }

/-- Whether an operation replaces all splitters and destinations. -/
def Operation.allocates : Operation → Bool
  | allocate .. => true
  | _ => false

/-- No byte string takes up more than half of the address space. -/
def Operation.Fits : Operation → Prop
  | update bytes => bytes.length < addressSpace / 2
  | _ => True

/-- The graph after operations that start from an empty one. -/
def Graph.runs (operations : List Operation) : Except Fault Graph :=
  operations.foldlM Operation.apply .empty

namespace Destination

/-- Making commands does not move a destination or change its identifier. -/
theorem commandsFor_bond (buffer : Int16) (indices : List (Fin maxFilters))
    (destination : Destination) (table : Array Biquad.State) :
    (commandsFor buffer indices destination table).1.bond = destination.bond ∧
      (commandsFor buffer indices destination table).1.id = destination.id := by
  induction indices generalizing destination table with
  | nil => exact ⟨rfl, rfl⟩
  | cons index indices ih =>
    -- A command sets states and flags of its filter only.
    simp only [commandsFor]
    split
    · exact ih _ _
    · exact ih _ _

/-- Making the commands of a revision does not move a destination or change its identifier. -/
theorem commands_bond (destination : Destination) (revision : Revision) (buffer : Int16)
    (table : Array Biquad.State) :
    (destination.commands revision buffer table).1.bond = destination.bond ∧
      (destination.commands revision buffer table).1.id = destination.id := by
  simp only [commands]
  split
  · exact commandsFor_bond buffer _ destination table
  · exact ⟨rfl, rfl⟩

end Destination

/-- Every edit succeeds and leaves a destination where it is. -/
theorem Edit.apply_eq (edit : Edit) (destination : Destination) :
    ∃ edited, edit.apply destination = .ok edited ∧ edited.bond = destination.bond ∧
      edited.id = destination.id := by
  -- An edit touches volumes, filters and flags, and none of these is part of a bond.
  cases edit with
  | mark => exact ⟨_, rfl, rfl, rfl⟩
  | latch => exact ⟨_, rfl, rfl, rfl⟩
  | clearVolumes => exact ⟨_, rfl, rfl, rfl⟩
  | setVolume buffer volume =>
    exact ⟨{ destination with volumes := destination.volumes.set buffer volume },
      by simp only [apply, Destination.setVolume, buffer.isLt, dif_pos], rfl, rfl⟩
  | setFilter index filter =>
    exact ⟨{ destination with filters := destination.filters.set index filter },
      by simp only [apply, Destination.setFilter, index.isLt, dif_pos], rfl, rfl⟩
  | receive record =>
    refine ⟨_, rfl, ?_, ?_⟩ <;>
      (simp only [Destination.receive]; split <;> rfl)
  | command revision buffer table =>
    exact ⟨_, rfl, destination.commands_bond revision buffer table⟩

namespace Graph

variable {graph : Graph} {chains : Chains}

/-- A graph is sound when its links are those of chains and its identifiers are its indices. -/
structure Sound (graph : Graph) : Prop where
  named : graph.Named
  represented : ∃ chains, Represents graph chains

/-- What the chains of a graph promise to those who follow them. -/
structure Linked (graph : Graph) : Prop where
  /-- Following the links from a splitter's head visits its chain and ends behind it. -/
  ends : ∀ splitter, Path graph.destinations (graph.head splitter) (graph.chain splitter) none
  distinct : ∀ splitter, (graph.chain splitter).Nodup
  inside : ∀ splitter, ∀ place ∈ graph.chain splitter, place < graph.destinations.size
  owned : ∀ splitter place, place ∈ graph.chain splitter ↔
    graph.destinations[place]?.bind Destination.owner = some splitter
  alone : ∀ splitter other, ∀ place ∈ graph.chain splitter, place ∈ graph.chain other →
    splitter = other
  loose : ∀ (place : Nat) (destination : Destination),
    graph.destinations[place]? = some destination → destination.owner = none →
      destination.next = none
  counted : ∀ (index : Nat) (splitter : Splitter), graph.splitters[index]? = some splitter →
    splitter.count = (graph.chain index).length
  /-- Looking a destination up finds one at every place of the chain and at no other. -/
  found : ∀ (index : Nat) (splitter : Splitter), graph.splitters[index]? = some splitter →
    ∀ place, (graph.destination? index place).isSome ↔ place < splitter.count

/-- The chain of a splitter that is read off a graph is the one that its links stand for. -/
theorem Represents.chain_eq (represents : Represents graph chains) (splitter : Nat) :
    graph.chain splitter = chains splitter :=
  chainFrom_eq (represents.woven.linked splitter) (represents.woven.length_le splitter)

/-- A sound graph keeps all promises. -/
theorem Sound.linked (sound : graph.Sound) : graph.Linked := by
  obtain ⟨chains, represents⟩ := sound.represented
  have chain := represents.chain_eq
  have counted : ∀ (index : Nat) (splitter : Splitter), graph.splitters[index]? = some splitter →
      splitter.count = (graph.chain index).length := by
    intro index splitter held
    have counted := represents.counted index
    simpa [count, held, chain] using counted
  have inside : ∀ splitter, ∀ place ∈ graph.chain splitter, place < graph.destinations.size := by
    intro splitter place visited
    rw [chain] at visited
    exact (represents.woven.linked splitter).inside visited
  constructor
  · intro splitter
    rw [chain]
    exact represents.woven.linked splitter
  · intro splitter
    rw [chain]
    exact represents.woven.distinct splitter
  · exact inside
  · intro splitter place
    rw [chain]
    exact represents.woven.owned splitter place
  · intro splitter other place here there
    rw [chain] at here there
    exact represents.woven.apart here there
  · exact represents.woven.loose
  · exact counted
  · intro index splitter held place
    rw [counted index splitter held, destination?]
    rcases Nat.lt_or_ge place (graph.chain index).length with early | late
    · -- Every place of a chain is in the pool, so a destination stands there.
      have within := inside index _ (List.getElem_mem early)
      simp [early, within]
    · simp [Nat.not_lt.mpr late]

/-- A graph without any links has empty chains. -/
theorem represents_empty
    (splitters : ∀ splitter ∈ graph.splitters, splitter.head = none ∧ splitter.count = 0)
    (destinations : ∀ destination ∈ graph.destinations,
      destination.next = none ∧ destination.owner = none) :
    Represents graph fun _ => [] := by
  -- No head leads anywhere and nothing is owned, which is what empty chains stand for.
  refine ⟨⟨fun splitter => ?_, fun _ => List.nodup_nil, fun splitter place => ?_, ?_⟩, ?_⟩
  · cases held : graph.splitters[splitter]? with
    | none => simp [head, held]
    | some found => simp [head, held, (splitters found (Array.mem_of_getElem? held)).1]
  · cases held : graph.destinations[place]? with
    | none => simp
    | some found => simp [(destinations found (Array.mem_of_getElem? held)).2]
  · intro place node held _
    exact (destinations node (Array.mem_of_getElem? held)).1
  · intro splitter
    cases held : graph.splitters[splitter]? with
    | none => simp [count, held]
    | some found => simp [count, held, (splitters found (Array.mem_of_getElem? held)).2]

/-- Each identifier below a count stands at its own index. -/
theorem identifiersBelow_getElem? {count index : Nat} {id : Int32}
    (held : (identifiersBelow count)[index]? = some id) : id.toInt = index := by
  -- There are no identifiers at all when the count is too large for them.
  simp only [identifiersBelow] at held
  split at held
  · next small =>
    obtain ⟨inside, rfl⟩ := Array.getElem?_eq_some_iff.mp held
    simp only [Array.size_map, Array.size_range] at inside
    simp only [UInt32.size] at small
    rw [Array.getElem_map, Array.getElem_range, Int32.toInt_ofNat_of_lt (by omega)]
  · simp at held

/-- The empty graph is sound. -/
theorem sound_empty : empty.Sound where
  named := ⟨by simp [empty], by simp [empty]⟩
  represented := ⟨_, represents_empty (by simp [empty]) (by simp [empty])⟩

/-- Newly allocated splitters and destinations are sound. -/
theorem Sound.allocate (sound : graph.Sound) (revision : Revision) (splitters destinations : Nat) :
    (graph.allocate revision splitters destinations).Sound := by
  rw [Graph.allocate]
  split
  · -- A revision without splitters, or a count of zero, leaves the graph of before.
    exact sound
  · -- New splitters and destinations are numbered from zero, and none of them is linked.
    refine ⟨⟨?_, ?_⟩, _, represents_empty ?_ ?_⟩
    · intro index splitter held
      rw [setUp, Array.getElem?_map] at held
      obtain ⟨id, found, rfl⟩ := Option.map_eq_some_iff.mp held
      exact identifiersBelow_getElem? found
    · intro index destination held
      rw [setUp, Array.getElem?_map] at held
      obtain ⟨id, found, rfl⟩ := Option.map_eq_some_iff.mp held
      exact identifiersBelow_getElem? found
    · intro splitter here
      obtain ⟨id, -, rfl⟩ := Array.mem_map.mp here
      exact ⟨rfl, rfl⟩
    · intro destination here
      obtain ⟨id, -, rfl⟩ := Array.mem_map.mp here
      exact ⟨rfl, rfl⟩

/-- A graph that is linked and identified like a sound one is sound. -/
theorem Sound.of_links {changed : Graph} (sound : graph.Sound) (links : changed.links = graph.links)
    (shape : changed.shape = graph.shape) : changed.Sound := by
  obtain ⟨chains, represents⟩ := sound.represented
  exact ⟨named_of_shape shape sound.named, chains, represents.of_links links⟩

/-- An update of a sound graph succeeds and leaves a sound one. -/
theorem Sound.update (sound : graph.Sound) {bytes : Bytes} (fits : bytes.length < addressSpace / 2) :
    ∃ taken changed, graph.update bytes = .ok (taken, changed) ∧ changed.Sound ∧
      changed.shape = graph.shape := by
  obtain ⟨chains, represents⟩ := sound.represented
  cases found : graph.scan? bytes with
  | none => exact ⟨0, graph, update_eq_none found, sound, rfl⟩
  -- What applies is known from the scan, and no record in it can spoil the chains.
  | some scan =>
    obtain ⟨changed, run, after, same⟩ := update_eq represents sound.named fits found
    have shape : changed.shape = graph.shape :=
      (shape_of_bare same).trans ((puts_links _ _).2.trans
        ((notes_links _ _).2.trans (clearNew_shape graph)))
    exact ⟨_, changed, run, ⟨named_of_shape shape sound.named, _, after⟩, shape⟩

/-- What an update has left is sound and of the same shape. -/
theorem Sound.of_update {changed : Graph} (sound : graph.Sound) {bytes : Bytes}
    (fits : bytes.length < addressSpace / 2) {taken : Nat}
    (ran : graph.update bytes = .ok (taken, changed)) :
    changed.Sound ∧ changed.shape = graph.shape := by
  obtain ⟨length, updated, run, after, shape⟩ := sound.update fits
  obtain ⟨-, rfl⟩ := Prod.mk.inj (Except.ok.inj (run.symm.trans ran))
  exact ⟨after, shape⟩

/-- Every operation on a sound graph succeeds and leaves a sound one, which is of the same shape
unless it was allocated anew. -/
theorem Sound.apply (sound : graph.Sound) {operation : Operation} (fits : operation.Fits) :
    ∃ changed, operation.apply graph = .ok changed ∧ changed.Sound ∧
      (operation.allocates = false → changed.shape = graph.shape) := by
  -- All operations but an update leave the links; an update rebuilds the chains that it names.
  cases operation with
  | allocate revision splitters destinations =>
    exact ⟨_, rfl, sound.allocate revision _ _, fun stays => (nomatch stays)⟩
  | update bytes =>
    obtain ⟨taken, changed, run, after, shape⟩ := sound.update fits
    exact ⟨changed, by simp [Operation.apply, run], after, fun _ => shape⟩
  | latch =>
    obtain ⟨chains, represents⟩ := sound.represented
    exact ⟨graph.latched, latch_eq represents,
      sound.of_links graph.latched_links graph.latched_shape, fun _ => graph.latched_shape⟩
  | clearNew =>
    exact ⟨_, rfl, sound.of_links (clearNew_links graph) (clearNew_shape graph),
      fun _ => clearNew_shape graph⟩
  | edit place change =>
    cases held : graph.destinations[place]? with
    | none => exact ⟨graph, by simp [Operation.apply, held], sound, fun _ => rfl⟩
    | some destination =>
      -- An edited destination is stored with its link, its owner and its identifier.
      obtain ⟨edited, run, bond, id⟩ := change.apply_eq destination
      let changed : Graph :=
        { graph with destinations := graph.destinations.setIfInBounds place edited }
      have links : changed.links = graph.links := by
        simp only [changed, Graph.links, map_set_same Destination.bond held bond]
      have shape : changed.shape = graph.shape := by
        simp only [changed, Graph.shape, map_set_same Destination.id held id]
      exact ⟨changed, by simp only [Operation.apply, held, run, ok_bind, pure_eq_ok, changed],
        sound.of_links links shape, fun _ => shape⟩

/-- Operations on a sound graph succeed one after the other and leave a sound one. -/
theorem Sound.applyAll (sound : graph.Sound) {operations : List Operation}
    (fits : ∀ operation ∈ operations, operation.Fits) :
    ∃ changed, operations.foldlM Operation.apply graph = .ok changed ∧ changed.Sound := by
  induction operations generalizing graph with
  | nil => exact ⟨graph, rfl, sound⟩
  | cons operation operations ih =>
    -- Soundness is all that the other operations need of the graph they find.
    obtain ⟨first, run, after, -⟩ := sound.apply (fits operation (by simp))
    obtain ⟨changed, runAll, afterAll⟩ := ih after fun other here => fits other (by simp [here])
    exact ⟨changed, by simpa only [List.foldlM_cons, run, ok_bind] using runAll, afterAll⟩

/-- Every graph that is reached is sound. -/
theorem sound_of_runs {operations : List Operation}
    (fits : ∀ operation ∈ operations, operation.Fits) (reached : runs operations = .ok graph) :
    graph.Sound := by
  obtain ⟨same, ran, sound⟩ := sound_empty.applyAll fits
  obtain rfl : same = graph := Except.ok.inj (ran.symm.trans reached)
  exact sound

/-- Every run of operations succeeds and leaves a graph whose chains keep all promises. -/
theorem runs_linked (operations : List Operation)
    (fits : ∀ operation ∈ operations, operation.Fits) :
    ∃ graph, runs operations = .ok graph ∧ graph.Linked := by
  obtain ⟨graph, run, sound⟩ := sound_empty.applyAll fits
  exact ⟨graph, run, sound.linked⟩

/-- A section lists two splitters, of which the second takes a destination away from the first; then
the volumes are latched, and a string that is no section is refused. -/
theorem runs_linked_taken :
    let listed (splitter : Int32) (places : List UInt32) : Bytes :=
      (SplitterRecord.mk splitterMagic splitter 48000 (.ofNat places.length)).encode ++
        places.flatMap Bytes.ofUInt32
    let operations : List Operation :=
      [.allocate .newest 2 4, .edit 1 .mark,
        .update ((Header.mk headerMagic 2 0 (.zeros 0x14)).encode ++
          listed 0 [0, 1, 0] ++ listed 1 [2, 0]), .latch, .update [0]]
    (∀ operation ∈ operations, operation.Fits) ∧ ∃ graph, runs operations = .ok graph ∧
      graph.Linked ∧ graph.chain 0 = [1] ∧ graph.chain 1 = [2, 0] ∧
      graph.destinations.toList.map Destination.owner = [some 1, some 0, some 1, none] := by
  intro listed operations
  have fits : ∀ operation ∈ operations, operation.Fits := by
    simp only [operations, List.forall_mem_cons]
    exact ⟨trivial, trivial, show List.length _ < _ by decide +kernel, trivial,
      show List.length _ < _ by decide +kernel, by simp⟩
  obtain ⟨graph, ran, linked⟩ := runs_linked operations fits
  -- The chains are computed along the run; the theorem tells that the links agree with them.
  have shown : (runs operations).map (fun graph =>
      (graph.chain 0, graph.chain 1, graph.destinations.toList.map Destination.owner)) =
        .ok ([1], [2, 0], [some 1, some 0, some 1, none]) := by
    decide +kernel
  rw [ran] at shown
  simp only [Except.map, Except.ok.injEq, Prod.mk.injEq] at shown
  exact ⟨fits, graph, ran, linked, shown⟩

end Graph

end Mixdown.Splitter
