import Mixdown.Proofs.Splitter.Update

/-! Latching a graph latches exactly the destinations that are on a chain. -/

namespace Mixdown.Splitter

namespace Destination

/-- Latching does not move a destination. -/
@[simp] theorem latch_bond (destination : Destination) : destination.latch.bond = destination.bond :=
  rfl

/-- Latching a second time changes nothing more. -/
@[simp] theorem latch_latch (destination : Destination) :
    destination.latch.latch = destination.latch := by
  simp only [latch, Bool.and_false, Bool.false_eq_true, if_false]

end Destination

namespace Graph

/-- Latching along a path latches exactly the destinations on it. -/
theorem latchFrom_eq {destinations : Array Destination} {first : Option Nat} {places : List Nat}
    {most : Nat} (path : Path destinations first places none) (time : places.length ≤ most) :
    ∃ latched, latchFrom most first destinations = .ok latched ∧
      ∀ place, latched[place]? =
        destinations[place]?.map fun node => if place ∈ places then node.latch else node := by
  -- Latching keeps all links, so the rest of the path stays where it is.
  induction places generalizing first most destinations with
  | nil =>
    obtain rfl := Path.nil_iff.mp path
    exact ⟨destinations, by cases most <;> rfl, by simp⟩
  | cons head places ih =>
    obtain ⟨rfl, next, leads, rest⟩ := Path.cons_iff.mp path
    obtain ⟨node, held, rfl⟩ := Option.map_eq_some_iff.mp leads
    have inside := (Array.getElem?_eq_some_iff.mp held).1
    cases most with
    | zero => simp at time
    | succ most =>
      -- The first destination is latched in place, with the link that leads to the next one.
      have links : ∀ place, linkAt (destinations.setIfInBounds head node.latch) place =
          linkAt destinations place := by
        intro place
        by_cases same : head = place
        · subst same
          rw [linkAt_set_self inside, linkAt, held]
          rfl
        · exact linkAt_set_ne same node.latch
      obtain ⟨latched, run, cells⟩ := ih (rest.congr fun place _ => links place) (by simpa using time)
      refine ⟨latched, ?_, fun place => ?_⟩
      · simp only [latchFrom, fetch_eq_ok held, store_eq_ok inside, ok_bind]
        exact run
      · -- Latching the head again on the rest of the path would change nothing.
        rw [cells place, Array.getElem?_setIfInBounds]
        by_cases same : head = place
        · subst same
          rw [held]
          simp [inside]
        · simp [same, Ne.symm same]

/-- Latching the chains of several splitters latches exactly the destinations on any of them. -/
theorem latchAll_eq (splitters : List Splitter) (walk : Option Nat → List Nat)
    (destinations : Array Destination)
    (paths : ∀ splitter ∈ splitters, Path destinations splitter.head (walk splitter.head) none)
    (distinct : ∀ splitter ∈ splitters, (walk splitter.head).Nodup) :
    ∃ latched, splitters.foldlM (fun destinations splitter =>
        latchFrom destinations.size splitter.head destinations) destinations = .ok latched ∧
      ∀ place, latched[place]? = destinations[place]?.map fun node =>
        if ∃ splitter ∈ splitters, place ∈ walk splitter.head then node.latch else node := by
  induction splitters generalizing destinations with
  | nil => exact ⟨destinations, rfl, by simp⟩
  | cons splitter splitters ih =>
    have path := paths splitter (by simp)
    obtain ⟨first, run, cells⟩ :=
      latchFrom_eq path (path.length_le (distinct splitter (by simp)))
    -- The other chains are where they were after the first one has been latched.
    have links : ∀ place, linkAt first place = linkAt destinations place := by
      intro place
      simp only [linkAt, cells place, Option.map_map]
      congr 1
      funext node
      simp only [Function.comp_apply]
      split <;> rfl
    obtain ⟨latched, runAll, cellsAll⟩ := ih first
      (fun other here => (paths other (by simp [here])).congr fun place _ => links place)
      fun other here => distinct other (by simp [here])
    refine ⟨latched, by simpa only [List.foldlM_cons, run, ok_bind] using runAll, fun place => ?_⟩
    rw [cellsAll place, cells place, Option.map_map]
    congr 1
    funext node
    -- A destination that is visited twice is no different from one that is visited once.
    by_cases here : place ∈ walk splitter.head <;>
      by_cases later : ∃ splitter ∈ splitters, place ∈ walk splitter.head <;>
        simp [here, later]

/-- The graph with all destinations latched that have an owner. -/
def latched (graph : Graph) : Graph :=
  { graph with
    destinations := graph.destinations.map fun destination =>
      if destination.owner.isSome then destination.latch else destination }

/-- What latching does not change of a destination it leaves of all. -/
theorem latched_look {look : Destination → β}
    (same : ∀ destination : Destination, look destination.latch = look destination)
    (graph : Graph) : graph.latched.destinations.map look = graph.destinations.map look := by
  rw [latched, Array.map_map]
  congr 1
  funext destination
  simp only [Function.comp_apply]
  split
  · exact same destination
  · rfl

/-- Latching leaves the links. -/
theorem latched_links (graph : Graph) : graph.latched.links = graph.links :=
  congrArg (Prod.mk _) (latched_look Destination.latch_bond graph)

/-- Latching leaves the shape. -/
theorem latched_shape (graph : Graph) : graph.latched.shape = graph.shape := by
  have ids : graph.latched.destinations.map Destination.id = graph.destinations.map Destination.id :=
    latched_look (fun _ => rfl) graph
  simp only [shape, ids]
  rfl

/-- Latching a graph latches exactly the destinations that have an owner. -/
theorem latch_eq {graph : Graph} {chains : Chains} (represents : Represents graph chains) :
    graph.latch = .ok graph.latched := by
  -- Walking from any head yields the chain of the splitter that the head belongs to.
  have walked : ∀ splitter, graph.chainFrom graph.destinations.size (graph.head splitter) =
      chains splitter := fun splitter =>
    chainFrom_eq (represents.woven.linked splitter) (represents.woven.length_le splitter)
  have index : ∀ splitter ∈ graph.splitters.toList, ∃ place, graph.head place = splitter.head := by
    intro splitter here
    obtain ⟨place, inside, rfl⟩ := Array.mem_iff_getElem.mp (Array.mem_toList_iff.mp here)
    exact ⟨place, by simp [head, inside]⟩
  obtain ⟨latched, run, cells⟩ := latchAll_eq graph.splitters.toList
    (graph.chainFrom graph.destinations.size) graph.destinations
    (fun splitter here => by
      obtain ⟨place, same⟩ := index splitter here
      rw [← same, walked]
      exact represents.woven.linked place)
    (fun splitter here => by
      obtain ⟨place, same⟩ := index splitter here
      rw [← same, walked]
      exact represents.woven.distinct place)
  have same : latched = graph.destinations.map fun destination =>
      if destination.owner.isSome then destination.latch else destination := by
    apply Array.ext_getElem?
    intro place
    rw [cells place, Array.getElem?_map]
    cases held : graph.destinations[place]? with
    | none => rfl
    | some node =>
      -- A destination has an owner exactly when it is on the chain of one.
      have visited : (∃ splitter ∈ graph.splitters.toList,
          place ∈ graph.chainFrom graph.destinations.size splitter.head) ↔
            node.owner.isSome := by
        constructor
        · rintro ⟨splitter, here, on⟩
          obtain ⟨keeper, same⟩ := index splitter here
          rw [← same, walked, represents.woven.owned, held] at on
          simp only [Option.bind_some] at on
          simp [on]
        · intro owned
          obtain ⟨keeper, owner⟩ := Option.isSome_iff_exists.mp owned
          have on := (represents.woven.owned keeper place).mpr (by simp [held, owner])
          cases kept : graph.splitters[keeper]? with
          | none =>
            -- Without such a splitter the chain would be empty.
            have path := represents.woven.linked keeper
            rw [show graph.head keeper = none by simp [head, kept]] at path
            rw [Path.unique path (.nil none)] at on
            simp at on
          | some splitter =>
            refine ⟨splitter, Array.mem_toList_iff.mpr (Array.mem_of_getElem? kept), ?_⟩
            rw [← show graph.head keeper = splitter.head by simp [head, kept], walked]
            exact on
      simp only [Option.map_some, visited]
  rw [latch, ← Array.foldlM_toList, run, same]
  rfl

end Graph

end Mixdown.Splitter
