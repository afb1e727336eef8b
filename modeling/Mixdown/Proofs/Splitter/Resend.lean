import Mixdown.Proofs.Splitter.Settings

/-! A section that is sent again finds its chains made, its rates set and its flags raised. -/

namespace Mixdown.Splitter

namespace Path

variable {destinations changed : Array Destination} {first start : Option Nat} {places : List Nat}

/-- A path to the end starts at the first place that it visits, if it visits any. -/
theorem start_eq (path : Path destinations first places none) : first = places.head? := by
  cases places with
  | nil => exact nil_iff.mp path
  | cons place places => exact (cons_iff.mp path).1

/-- Paths through the same places to the end follow the same links. -/
theorem linkAt_eq (left : Path destinations first places none)
    (right : Path changed start places none) :
    ∀ place ∈ places, linkAt changed place = linkAt destinations place := by
  induction places generalizing first start with
  | nil => simp
  | cons head places ih =>
    obtain ⟨-, next, leads, rest⟩ := cons_iff.mp left
    obtain ⟨-, next', leads', rest'⟩ := cons_iff.mp right
    -- The link of a place is where the path behind it starts.
    intro place visited
    rcases List.mem_cons.mp visited with rfl | visited
    · rw [leads, leads', rest.start_eq, rest'.start_eq]
    · exact ih rest rest' place visited

end Path

namespace Graph

variable {graph changed : Graph} {chains : Chains}

/-- Chains say how the splitters hold them. -/
theorem Represents.anchors_eq (left : Represents graph chains) (right : Represents changed chains)
    (size : changed.splitters.size = graph.splitters.size) :
    changed.splitters.map anchor = graph.splitters.map anchor := by
  -- A chain starts at its first place, and its count is its length.
  have heads (splitter : Nat) : changed.head splitter = graph.head splitter :=
    (right.woven.linked splitter).start_eq.trans (left.woven.linked splitter).start_eq.symm
  have counts (splitter : Nat) : changed.count splitter = graph.count splitter :=
    (right.counted splitter).trans (left.counted splitter).symm
  refine Array.ext (by simp [size]) fun index here there => ?_
  simp only [Array.size_map] at here there
  simpa [head, count, anchor, here, there] using And.intro (heads index) (counts index)

/-- Chains say how the destinations are linked and by whom they are owned. -/
theorem Represents.bonds_eq (left : Represents graph chains) (right : Represents changed chains)
    (size : changed.destinations.size = graph.destinations.size) :
    changed.destinations.map Destination.bond = graph.destinations.map Destination.bond := by
  refine Array.ext (by simp [size]) fun place here there => ?_
  simp only [Array.size_map] at here there
  have found := Array.getElem?_eq_getElem here
  have held := Array.getElem?_eq_getElem there
  -- Owners are those on whose chains the destination is.
  have owners : changed.destinations[place].owner = graph.destinations[place].owner :=
    Option.ext fun splitter => by
      simpa [found, held] using (right.woven.owned splitter place).symm.trans
        (left.woven.owned splitter place)
  have nexts : changed.destinations[place].next = graph.destinations[place].next := by
    cases owned : graph.destinations[place].owner with
    | none =>
      -- Without an owner a destination leads nowhere.
      rw [left.woven.loose place _ held owned, right.woven.loose place _ found (owners.trans owned)]
    | some splitter =>
      have visited := (left.woven.owned splitter place).mpr (by rw [held]; exact owned)
      simpa [linkAt, found, held] using
        (left.woven.linked splitter).linkAt_eq (right.woven.linked splitter) place visited
  simp only [Array.getElem_map, Destination.bond, owners, nexts]

/-- Assignments decide the chain of a splitter that they name, and only shorten any other one. -/
theorem assigned_cases (graph : Graph) (assignments : List Assignment) (splitter : Nat) :
    (∃ places, ∀ chains, assignments.foldl graph.assigned chains splitter = places) ∨
      ∃ taken : List Nat, ∀ chains, assignments.foldl graph.assigned chains splitter =
        (chains splitter).filter (· ∉ taken) := by
  induction assignments with
  | nil => exact .inr ⟨[], fun chains => by simp⟩
  | cons assignment assignments ih =>
    obtain ⟨places, decided⟩ | ⟨taken, left⟩ := ih
    · exact .inl ⟨places, fun chains => decided _⟩
    · -- Later assignments only take places off what this one has made of the chain.
      simp only [List.foldl_cons, left, assigned, Chains.assign]
      by_cases named : splitter = assignment.splitter
      · exact .inl ⟨_, fun chains => by rw [if_pos named]⟩
      · refine .inr ⟨listed graph.destinations.size (assignment.ids.take
          (graph.linkable assignment.record.count.toNat)) ++ taken, fun chains => ?_⟩
        simp [named, List.filter_filter, Bool.and_comm]

/-- Assignments that are made again leave the chains that they have made. -/
theorem assigned_twice (graph : Graph) (assignments : List Assignment) (chains : Chains) :
    assignments.foldl graph.assigned (assignments.foldl graph.assigned chains) =
      assignments.foldl graph.assigned chains := by
  funext splitter
  obtain ⟨places, decided⟩ | ⟨taken, left⟩ := graph.assigned_cases assignments splitter
  · rw [decided, decided]
  · rw [left, left, List.filter_filter]
    simp only [Bool.and_self]

/-- Records set the rate of a splitter that they name, and leave any other one. -/
theorem notes_cases (assignments : List Assignment) (index : Nat) :
    (∃ rate, ∀ graph : Graph, (assignments.foldl note graph).splitters[index]? =
      graph.splitters[index]?.map fun splitter => { splitter with rate, isNew := true }) ∨
      ∀ graph : Graph, (assignments.foldl note graph).splitters[index]? =
        graph.splitters[index]? := by
  induction assignments with
  | nil => exact .inr fun graph => rfl
  | cons assignment assignments ih =>
    have one (graph : Graph) : (graph.note assignment).splitters[index]? =
        if assignment.splitter = index then graph.splitters[index]?.map fun splitter =>
          { splitter with rate := assignment.record.rate, isNew := true }
        else graph.splitters[index]? :=
      Array.getElem?_modify
    -- The last record that names a splitter decides.
    obtain ⟨rate, decided⟩ | left := ih
    · refine .inl ⟨rate, fun graph => ?_⟩
      rw [List.foldl_cons, decided, one]
      split <;> simp [Function.comp_def]
    · by_cases named : assignment.splitter = index
      · exact .inl ⟨assignment.record.rate, fun graph => by
          rw [List.foldl_cons, left, one, if_pos named]⟩
      · exact .inr fun graph => by rw [List.foldl_cons, left, one, if_neg named]

/-- Settings have no part in the splitters. -/
theorem puts_splitters (graph : Graph) (settings : List (Nat × DestinationRecord)) :
    (settings.foldl put graph).bare.splitters = graph.bare.splitters := by
  induction settings generalizing graph with
  | nil => rfl
  | cons setting settings ih => exact ih (graph.put setting)

/-- Rates that are set again after the flags were lowered leave what they have set. -/
theorem notes_twice {assignments : List Assignment}
    (set : changed.bare.splitters = (assignments.foldl note graph.clearNew).bare.splitters) :
    (assignments.foldl note changed.clearNew).bare.splitters = changed.bare.splitters := by
  refine Array.ext_getElem? fun index => ?_
  have seen := congrArg (·[index]?) set
  simp only [bare, Array.getElem?_map] at seen ⊢
  obtain ⟨rate, decided⟩ | left := notes_cases assignments index
  · rw [decided] at seen ⊢
    -- What sets the rate and the flag does so with and without the links, and once as well as twice.
    have apart : (changed.clearNew.splitters[index]?.map fun splitter =>
        { splitter with rate, isNew := true }).map (·.relink none 0) =
          (changed.splitters[index]?.map (·.relink none 0)).map fun splitter =>
            { splitter with rate, isNew := true } := by
      simp [clearNew, Function.comp_def, Splitter.relink]
    rw [apart, seen]
    simp [Function.comp_def, Splitter.relink]
  · rw [left] at seen ⊢
    -- A splitter that is not named has its flag lowered the first time already.
    have apart : changed.clearNew.splitters[index]?.map (·.relink none 0) =
        (changed.splitters[index]?.map (·.relink none 0)).map fun splitter =>
          { splitter with isNew := false } := by
      simp [clearNew, Function.comp_def, Splitter.relink]
    rw [apart, seen]
    simp [clearNew, Function.comp_def, Splitter.relink]

/-- A splitter is what it is without its chain and what holds it to the chain. -/
theorem splitters_eq (same : changed.bare.splitters = graph.bare.splitters)
    (anchors : changed.splitters.map anchor = graph.splitters.map anchor) :
    changed.splitters = graph.splitters := by
  have size : changed.splitters.size = graph.splitters.size := by
    simpa using congrArg Array.size anchors
  refine Array.ext size fun index here there => ?_
  have alike : changed.splitters[index].relink none 0 = graph.splitters[index].relink none 0 := by
    simpa [bare, here, there] using congrArg (·[index]?) same
  have held : anchor changed.splitters[index] = anchor graph.splitters[index] := by
    simpa [here, there] using congrArg (·[index]?) anchors
  -- A bare splitter lacks nothing but its anchor.
  calc changed.splitters[index]
    _ = (changed.splitters[index].relink none 0).relink (anchor changed.splitters[index]).1
        (anchor changed.splitters[index]).2 := rfl
    _ = graph.splitters[index] := by rw [alike, held]; rfl

/-- A graph of the same shape finds the same in a byte string. -/
theorem scan?_of_shape (same : changed.shape = graph.shape) (bytes : Bytes) :
    changed.scan? bytes = graph.scan? bytes := by
  have filtered : changed.filtered = graph.filtered := congrArg Shape.filtered same
  simp only [scan?, splitters_size_of_shape same, destinations_size_of_shape same, filtered]

/--
A byte string that any reachable graph is sent twice in a row is taken alike both times, and the
second time changes no chain, no splitter and no link or owner of a destination.
-/
theorem runs_update_twice {operations : List Operation}
    (fits : ∀ operation ∈ operations, operation.Fits)
    (reached : runs operations = .ok graph) {bytes : Bytes}
    (room : bytes.length < addressSpace / 2) :
    ∃ taken once twice, graph.update bytes = .ok (taken, once) ∧
      once.update bytes = .ok (taken, twice) ∧ twice.chain = once.chain ∧
      twice.splitters = once.splitters ∧
      twice.destinations.map Destination.bond = once.destinations.map Destination.bond := by
  obtain ⟨same, run, sound⟩ := sound_empty.applyAll fits
  obtain rfl : same = graph := Except.ok.inj (run.symm.trans reached)
  cases found : same.scan? bytes with
  | none =>
    have ignored := update_eq_none found
    exact ⟨0, same, same, ignored, ignored, rfl, rfl, rfl⟩
  | some scan =>
    obtain ⟨chains, represents⟩ := sound.represented
    obtain ⟨once, first, linked, bare⟩ := update_eq represents sound.named room found
    obtain ⟨soundOnce, shape⟩ := sound.of_update room first
    -- The scan does not depend on the chains, so the second time applies the same records.
    obtain ⟨twice, second, linkedAgain, bareAgain⟩ := update_eq linked soundOnce.named room
      ((scan?_of_shape shape bytes).trans found)
    rw [assigned_of_shape shape, assigned_twice] at linkedAgain
    have still := (soundOnce.of_update room second).2
    have splitters := (congrArg Graph.splitters bare).trans (puts_splitters _ _)
    have bares : twice.bare.splitters = once.bare.splitters :=
      ((congrArg Graph.splitters bareAgain).trans (puts_splitters _ _)).trans (notes_twice splitters)
    refine ⟨scan.length, once, twice, first, second, ?_, ?_, ?_⟩
    · funext splitter
      rw [linkedAgain.chain_eq, linked.chain_eq]
    · exact splitters_eq bares (linked.anchors_eq linkedAgain (splitters_size_of_shape still))
    · exact linked.bonds_eq linkedAgain (destinations_size_of_shape still)

/-- Two splitters share destinations, one of them is named twice, and the last record breaks off. -/
theorem runs_update_twice_shared :
    let graph := empty.allocate .newest 2 3
    let sent : Section :=
      { header := ⟨headerMagic, 3, 1, .zeros 0x14⟩
        listings := [⟨⟨splitterMagic, 0, 48000, 2⟩, [0, 1]⟩, ⟨⟨splitterMagic, 1, 44100, 2⟩, [1, 2]⟩,
          ⟨⟨splitterMagic, 0, 32000, 1⟩, [2]⟩]
        settings := [⟨destinationMagic, 1, .replicate _ 0, 0, some (.replicate _ .zero), 1, 0,
          .zeros 10⟩] }
    let bytes := sent.encode.dropLast
    ((∀ operation ∈ [Operation.allocate .newest 2 3], operation.Fits) ∧
        runs [.allocate .newest 2 3] = .ok graph ∧ bytes.length < addressSpace / 2) ∧
      ∃ taken once twice, graph.update bytes = .ok (taken, once) ∧
        once.update bytes = .ok (taken, twice) ∧ twice.chain = once.chain ∧
        once.chain 0 = [2] ∧ once.chain 1 = [1] ∧ twice.splitters = once.splitters := by
  intro graph sent bytes
  have fits : ∀ operation ∈ [Operation.allocate .newest 2 3], operation.Fits := by
    simp [Operation.Fits]
  have reached : runs [.allocate .newest 2 3] = .ok graph := rfl
  have room : bytes.length < addressSpace / 2 := by decide +kernel
  obtain ⟨taken, once, twice, first, second, chain, splitters, -⟩ :=
    runs_update_twice fits reached room
  -- The last listing decides the first chain, and takes nothing off the second one.
  have chains : (graph.update bytes).toOption.map (fun updated => (updated.2.chain 0,
      updated.2.chain 1)) = some ([2], [1]) := by
    decide +kernel
  simp only [first, Except.toOption, Option.map_some, Option.some.injEq, Prod.mk.injEq] at chains
  exact ⟨⟨fits, reached, room⟩, taken, once, twice, first, second, chain, chains.1, chains.2,
    splitters⟩

end Graph

end Mixdown.Splitter
