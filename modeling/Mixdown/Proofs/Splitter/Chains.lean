import Mathlib.Data.List.Nodup
import Mathlib.Logic.Function.Basic
import Mixdown.Proofs.Splitter.Path

/-! The lists that the chains of a graph stand for, and what taking places does to them. -/

namespace Mixdown.Splitter

/-- A list without a place loses nothing when the place is taken out. -/
theorem filter_ne_eq {places : List Nat} {place : Nat} (absent : place ∉ places) :
    places.filter (· ≠ place) = places :=
  List.filter_eq_self.mpr fun other here => by
    simpa using fun same : other = place => absent (same ▸ here)

/-- The places that each splitter leads to, in order. -/
abbrev Chains := Nat → List Nat

namespace Chains

/-- A place leaves every chain. -/
def without (chains : Chains) (place : Nat) : Chains :=
  fun splitter => (chains splitter).filter (· ≠ place)

/-- Places move behind the chain of one splitter and leave all others. -/
def extend (chains : Chains) (splitter : Nat) (places : List Nat) : Chains := fun other =>
  if other = splitter then chains other ++ places else (chains other).filter (· ∉ places)

/-- Places become the chain of one splitter and leave all others. -/
def assign (chains : Chains) (splitter : Nat) (places : List Nat) : Chains := fun other =>
  if other = splitter then places else (chains other).filter (· ∉ places)

/-- A chain that does not lead to a place keeps its places when that place leaves. -/
theorem without_eq {chains : Chains} {splitter place : Nat} (absent : place ∉ chains splitter) :
    chains.without place splitter = chains splitter :=
  filter_ne_eq absent

/-- Moving no place changes nothing. -/
@[simp] theorem extend_nil (chains : Chains) (splitter : Nat) : chains.extend splitter [] = chains := by
  funext other
  simp [extend]

/-- Places may be moved in two parts. -/
theorem extend_append (chains : Chains) (splitter : Nat) (front back : List Nat) :
    (chains.extend splitter front).extend splitter back = chains.extend splitter (front ++ back) := by
  -- The splitter collects both parts in order, and every other one loses both.
  funext other
  by_cases same : other = splitter
  · simp [extend, same]
  · simp [extend, same, List.filter_filter, Bool.and_comm]

/-- A chain that was emptied before is made of what is moved to it. -/
theorem extend_assign_nil (chains : Chains) (splitter : Nat) (places : List Nat) :
    (chains.assign splitter []).extend splitter places = chains.assign splitter places := by
  -- The splitter's own chain was emptied, and others lose the places in either order.
  funext other
  by_cases same : other = splitter <;> simp [extend, assign, same]

/-- Moving one place takes it off every chain before it is put in its new position. -/
theorem extend_one {chains : Chains} {splitter place : Nat} (fresh : place ∉ chains splitter) :
    chains.extend splitter [place] =
      Function.update (chains.without place) splitter (chains splitter ++ [place]) := by
  -- The splitter itself does not hold the place yet, so it loses nothing.
  funext other
  by_cases same : other = splitter
  · subst same
    simp [extend]
  · simp [extend, without, same]

end Chains

/-- Storing one destination decides who owns its place and no other. -/
theorem owner_set {destinations : Array Destination} {index : Nat}
    (inside : index < destinations.size) (item : Destination) (place : Nat) :
    (destinations.setIfInBounds index item)[place]?.bind Destination.owner =
      if place = index then item.owner else destinations[place]?.bind Destination.owner := by
  by_cases same : index = place
  · subst same
    simp [inside]
  · simp [same, Ne.symm same]

/-- A destination that is stored again with the same owner leaves all owners as they are. -/
theorem owner_set_same {destinations : Array Destination} {index : Nat} {held : Destination}
    (found : destinations[index]? = some held) (item : Destination)
    (same : item.owner = held.owner) (place : Nat) :
    (destinations.setIfInBounds index item)[place]?.bind Destination.owner =
      destinations[place]?.bind Destination.owner := by
  rw [owner_set (Array.getElem?_eq_some_iff.mp found).1]
  split
  · next here => rw [here, found, Option.bind_some, same]
  · rfl

/-- Destinations without an owner lead nowhere still when one is stored of which this is true. -/
theorem loose_set {destinations : Array Destination} (loose : ∀ (place : Nat) (node : Destination),
      destinations[place]? = some node → node.owner = none → node.next = none)
    {index : Nat} (inside : index < destinations.size) {item : Destination}
    (tied : item.owner = none → item.next = none) (place : Nat) (node : Destination)
    (found : (destinations.setIfInBounds index item)[place]? = some node) (free : node.owner = none) :
    node.next = none := by
  by_cases same : index = place
  · subst same
    obtain rfl : item = node := by simpa [inside] using found
    exact tied free
  · exact loose place node (by simpa [same] using found) free

/-- The links and owners of destinations are those of chains that begin at the given heads. -/
structure Woven (destinations : Array Destination) (heads : Nat → Option Nat) (chains : Chains) :
    Prop where
  /-- Following the links from a head visits exactly the chain. -/
  linked : ∀ splitter, Path destinations (heads splitter) (chains splitter) none
  distinct : ∀ splitter, (chains splitter).Nodup
  /-- A destination is on the chain of the splitter that owns it and on no other. -/
  owned : ∀ splitter place,
    place ∈ chains splitter ↔ destinations[place]?.bind Destination.owner = some splitter
  /-- A destination without an owner leads nowhere. -/
  loose : ∀ (place : Nat) (node : Destination), destinations[place]? = some node →
    node.owner = none → node.next = none

namespace Woven

variable {destinations changed : Array Destination} {heads headsAfter : Nat → Option Nat}
  {chains : Chains} {splitter other place : Nat}

/-- No place is on two chains. -/
theorem apart (woven : Woven destinations heads chains) (here : place ∈ chains splitter)
    (there : place ∈ chains other) : splitter = other := by
  -- Both chains belong to the one owner of the place.
  have owner := (woven.owned splitter place).mp here
  rw [(woven.owned other place).mp there] at owner
  exact (Option.some.inj owner).symm

/-- A chain is no longer than the pool. -/
theorem length_le (woven : Woven destinations heads chains) (splitter : Nat) :
    (chains splitter).length ≤ destinations.size :=
  (woven.linked splitter).length_le (woven.distinct splitter)

/-- The chain of a splitter without a head is empty. -/
theorem chain_of_no_head (woven : Woven destinations heads chains) (headless : heads splitter = none) :
    chains splitter = [] := by
  -- The empty chain also runs from no head to the end.
  refine (woven.linked splitter).unique ?_
  simp [headless]

/-- A place without an owner is on no chain. -/
theorem not_mem_of_loose (woven : Woven destinations heads chains) {node : Destination}
    (held : destinations[place]? = some node) (free : node.owner = none) :
    place ∉ chains splitter := by
  -- A place on a chain is owned by the chain's splitter.
  intro visited
  have owner := (woven.owned splitter place).mp visited
  simp [held, free] at owner

/-- One chain may change while all others keep their links and their owners. -/
theorem replace (woven : Woven destinations heads chains) {places : List Nat}
    (linked : Path changed (headsAfter splitter) places none) (distinct : places.Nodup)
    (mine : ∀ place, place ∈ places ↔ changed[place]?.bind Destination.owner = some splitter)
    (theirs : ∀ other, other ≠ splitter → ∀ place,
      changed[place]?.bind Destination.owner = some other ↔ place ∈ chains other)
    (loose : ∀ (place : Nat) (node : Destination), changed[place]? = some node →
      node.owner = none → node.next = none)
    (heads_kept : ∀ other, other ≠ splitter → headsAfter other = heads other)
    (links_kept : ∀ place, place ∉ chains splitter → place ∉ places →
      linkAt changed place = linkAt destinations place) :
    Woven changed headsAfter (Function.update chains splitter places) := by
  constructor
  · intro other
    by_cases same : other = splitter
    · subst same
      simpa using linked
    · -- A place of another chain is neither on the old nor on the new one.
      rw [Function.update_of_ne same, heads_kept other same]
      refine (woven.linked other).congr fun place here => links_kept place ?_ ?_
      · exact fun there => same (woven.apart here there)
      · intro there
        have owner := (theirs other same place).mpr here
        rw [(mine place).mp there] at owner
        exact same (Option.some.inj owner).symm
  · intro other
    by_cases same : other = splitter
    · subst same
      simpa using distinct
    · simpa [same] using woven.distinct other
  · intro other place
    by_cases same : other = splitter
    · subst same
      simpa using mine place
    · simpa [same] using (theirs other same place).symm
  · exact loose

/-- A splitter's whole chain can be released, which leaves all others as they were. -/
theorem release (woven : Woven destinations heads chains) (splitter : Nat) :
    ∃ released, Graph.release destinations.size (heads splitter) destinations = .ok released ∧
      Woven released (Function.update heads splitter none) (chains.assign splitter []) ∧
      released.map Destination.detach = destinations.map Destination.detach := by
  obtain ⟨released, run, cells⟩ :=
    Graph.release_eq (woven.linked splitter) (woven.distinct splitter) (woven.length_le splitter)
  -- A released place has no owner, and any other one keeps its own.
  have owners : ∀ place, released[place]?.bind Destination.owner =
      if place ∈ chains splitter then none else destinations[place]?.bind Destination.owner := by
    intro place
    by_cases visited : place ∈ chains splitter <;>
      simp [cells, visited, Option.bind_map, Destination.detach]
  -- Emptying one chain takes no place from the others, so only this one is replaced.
  have emptied : chains.assign splitter [] = Function.update chains splitter [] := by
    funext other
    by_cases same : other = splitter <;> simp [Chains.assign, same]
  refine ⟨released, run, ?_, ?_⟩
  · rw [emptied]
    refine woven.replace (by simp) List.nodup_nil ?_ ?_ ?_ ?_ ?_
    · intro place
      have owned := woven.owned splitter place
      by_cases visited : place ∈ chains splitter
      · simp [owners, visited]
      · simpa [owners, visited] using owned
    · intro other apart place
      rw [owners place, woven.owned other place]
      by_cases visited : place ∈ chains splitter
      · simp [visited, (woven.owned splitter place).mp visited, Ne.symm apart]
      · simp [visited]
    · -- Released destinations lose their links together with their owners.
      intro place node held free
      rw [cells place] at held
      obtain ⟨before, found, rfl⟩ := Option.map_eq_some_iff.mp held
      by_cases visited : place ∈ chains splitter
      · simp [visited, Destination.detach]
      · simp only [visited, if_false] at free ⊢
        exact woven.loose place before found free
    · intro other apart
      exact Function.update_of_ne apart _ _
    · intro place absent _
      simp [linkAt, cells, absent]
  · -- Detaching forgets exactly what releasing changes.
    apply Array.ext_getElem?
    intro place
    simp only [Array.getElem?_map, cells place, Option.map_map]
    congr 1
    funext node
    simp only [Function.comp_apply]
    split <;> rfl

end Woven

end Mixdown.Splitter
