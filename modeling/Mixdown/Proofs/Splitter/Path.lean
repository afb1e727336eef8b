import Mathlib.Data.List.Perm.Subperm
import Mixdown.Splitter.Graph

/-! Paths along the links of destinations, and what walking or cutting them leaves behind. -/

namespace Mixdown.Splitter

/-- The link that a destination carries, if there is such a destination. -/
def linkAt (destinations : Array Destination) (place : Nat) : Option (Option Nat) :=
  destinations[place]?.map Destination.next

/-- Links lead through the listed places, from one link to another. -/
inductive Path (destinations : Array Destination) : Option Nat → List Nat → Option Nat → Prop
  | nil (link : Option Nat) : Path destinations link [] link
  | cons {place : Nat} {next last : Option Nat} {places : List Nat}
      (leads : linkAt destinations place = some next) (rest : Path destinations next places last) :
      Path destinations (some place) (place :: places) last

namespace Path

variable {destinations changed : Array Destination} {first middle last other : Option Nat}
  {places more : List Nat}

/-- A path that visits nothing stays where it is. -/
@[simp] theorem nil_iff : Path destinations first [] last ↔ first = last := by
  -- Only the empty path has no places, and it ends at its own link.
  constructor
  · rintro ⟨⟩
    rfl
  · rintro rfl
    exact .nil _

/-- A path that visits a place starts there and goes on behind it. -/
@[simp] theorem cons_iff {place : Nat} :
    Path destinations first (place :: places) last ↔
      first = some place ∧
        ∃ next, linkAt destinations place = some next ∧ Path destinations next places last := by
  -- The first place is the start, and its link begins the rest.
  constructor
  · rintro (_ | ⟨leads, rest⟩)
    exact ⟨rfl, _, leads, rest⟩
  · rintro ⟨rfl, next, leads, rest⟩
    exact .cons leads rest

/-- A path over two lists passes a link between them. -/
theorem append_iff :
    Path destinations first (places ++ more) last ↔
      ∃ middle, Path destinations first places middle ∧ Path destinations middle more last := by
  -- The induction moves the front places off one at a time.
  induction places generalizing first with
  | nil => simp
  | cons place places ih =>
    simp only [List.cons_append, cons_iff, ih]
    constructor
    · rintro ⟨start, next, leads, middle, front, back⟩
      exact ⟨middle, ⟨start, next, leads, front⟩, back⟩
    · rintro ⟨middle, ⟨start, next, leads, front⟩, back⟩
      exact ⟨start, next, leads, middle, front, back⟩

/-- Two paths that run to the end from one link visit the same places. -/
theorem unique (left : Path destinations first places none)
    (right : Path destinations first more none) : places = more := by
  -- Equal starts have equal links, so neither path can turn off or stop before the other.
  induction places generalizing first more with
  | nil =>
    -- The left path has ended at once, so the right one has no place to start from.
    obtain rfl := nil_iff.mp left
    cases more with
    | nil => rfl
    | cons place more => simp at right
  | cons place places ih =>
    obtain ⟨rfl, next, leads, rest⟩ := cons_iff.mp left
    -- The right path starts at the same place, and both follow the one link of it.
    cases more with
    | nil => simp at right
    | cons place' more =>
      obtain ⟨same, next', leads', rest'⟩ := cons_iff.mp right
      obtain rfl : place = place' := Option.some.inj same
      obtain rfl : next = next' := Option.some.inj (leads.symm.trans leads')
      rw [ih rest rest']

/-- A path visits the place it starts at, unless it visits nothing. -/
theorem start_mem {place : Nat} (path : Path destinations (some place) places last)
    (visits : places ≠ []) : place ∈ places := by
  cases places with
  | nil => exact absurd rfl visits
  | cons head places => simp [Option.some.inj (cons_iff.mp path).1]

/-- Every place on a path is in the pool. -/
theorem inside (path : Path destinations first places last) {place : Nat} (visited : place ∈ places) :
    place < destinations.size := by
  -- A visited place has a link, so a destination stands there.
  induction places generalizing first with
  | nil => simp at visited
  | cons head places ih =>
    obtain ⟨rfl, next, leads, rest⟩ := cons_iff.mp path
    rcases List.mem_cons.mp visited with rfl | visited
    · obtain ⟨node, held, -⟩ := Option.map_eq_some_iff.mp leads
      exact (Array.getElem?_eq_some_iff.mp held).1
    · exact ih rest visited

/-- A path that visits no place twice is no longer than the pool. -/
theorem length_le (path : Path destinations first places last) (distinct : places.Nodup) :
    places.length ≤ destinations.size := by
  -- Distinct places of the pool are a selection of its indices.
  have within : places ⊆ List.range destinations.size :=
    fun place visited => List.mem_range.mpr (path.inside visited)
  simpa using (List.subperm_of_subset distinct within).length_le

/-- A path stays where the links of its places stay. -/
theorem congr (path : Path destinations first places last)
    (kept : ∀ place ∈ places, linkAt changed place = linkAt destinations place) :
    Path changed first places last := by
  -- Only the links of visited places are ever read.
  induction places generalizing first with
  | nil => simpa using path
  | cons place places ih =>
    obtain ⟨rfl, next, leads, rest⟩ := cons_iff.mp path
    refine cons_iff.mpr ⟨rfl, next, ?_, ih rest fun p visited => kept p (by simp [visited])⟩
    rw [kept place (by simp), leads]

/-- Setting the link of its final place makes a path end elsewhere. -/
theorem redirect {final : Nat} (path : Path destinations first (places ++ [final]) last)
    (kept : ∀ place ∈ places, linkAt changed place = linkAt destinations place)
    (set : linkAt changed final = some other) :
    Path changed first (places ++ [final]) other := by
  -- The places in front of the final one keep their links and so still lead to it.
  obtain ⟨middle, front, back⟩ := append_iff.mp path
  obtain ⟨rfl, -⟩ := cons_iff.mp back
  exact append_iff.mpr ⟨_, front.congr kept, by simp [set]⟩

end Path

/-- Walking a chain from its head yields all of its places when there is time for them. -/
theorem Graph.chainFrom_eq {graph : Graph} {first : Option Nat} {places : List Nat} {most : Nat}
    (path : Path graph.destinations first places none) (time : places.length ≤ most) :
    graph.chainFrom most first = places := by
  -- Each step of the walk visits one place and takes one unit of time.
  induction places generalizing first most with
  | nil =>
    obtain rfl := Path.nil_iff.mp path
    cases most <;> rfl
  | cons place places ih =>
    obtain ⟨rfl, next, leads, rest⟩ := Path.cons_iff.mp path
    cases most with
    | zero => simp at time
    | succ most =>
      -- The walk reads the same link that the path follows.
      obtain ⟨node, held, rfl⟩ := Option.map_eq_some_iff.mp leads
      have behind : graph.next? place = node.next := by simp [Graph.next?, held]
      rw [Graph.chainFrom, behind, ih rest (by simpa using time)]

/-- The destination outside of all chains. -/
def Destination.detach (destination : Destination) : Destination :=
  { destination with next := none, owner := none }

/-- Storing one destination leaves the links of all others. -/
theorem linkAt_set_ne {destinations : Array Destination} {place other : Nat} (apart : place ≠ other)
    (node : Destination) :
    linkAt (destinations.setIfInBounds place node) other = linkAt destinations other := by
  simp [linkAt, Array.getElem?_setIfInBounds_ne apart]

/-- A destination that was stored carries its own link. -/
theorem linkAt_set_self {destinations : Array Destination} {place : Nat}
    (inside : place < destinations.size) (node : Destination) :
    linkAt (destinations.setIfInBounds place node) place = some node.next := by
  simp [linkAt, Array.getElem?_setIfInBounds_self_of_lt inside]

/-- Releasing a chain detaches exactly the destinations on it. -/
theorem Graph.release_eq {destinations : Array Destination} {first : Option Nat}
    {places : List Nat} {most : Nat} (path : Path destinations first places none)
    (distinct : places.Nodup) (time : places.length ≤ most) :
    ∃ released, Graph.release most first destinations = .ok released ∧
      ∀ place, released[place]? =
        destinations[place]?.map fun node => if place ∈ places then node.detach else node := by
  -- The walk reads a link before it clears it, and no later place can lead back to a cleared one.
  induction places generalizing first most destinations with
  | nil =>
    obtain rfl := Path.nil_iff.mp path
    exact ⟨destinations, by cases most <;> rfl, by simp⟩
  | cons head places ih =>
    obtain ⟨rfl, next, leads, rest⟩ := Path.cons_iff.mp path
    obtain ⟨node, held, rfl⟩ := Option.map_eq_some_iff.mp leads
    obtain ⟨fresh, distinct⟩ := List.nodup_cons.mp distinct
    have inside := (Array.getElem?_eq_some_iff.mp held).1
    cases most with
    | zero => simp at time
    | succ most =>
      have rest : Path (destinations.setIfInBounds head node.detach) node.next places none :=
        rest.congr fun place visited =>
          linkAt_set_ne (by rintro rfl; exact fresh visited) node.detach
      obtain ⟨released, run, cells⟩ := ih rest distinct (by simpa using time)
      refine ⟨released, ?_, fun place => ?_⟩
      · simp only [release, fetch_eq_ok held, store_eq_ok inside, ok_bind]
        exact run
      · -- The head has been detached once, since the walk does not come back to it.
        rw [cells place, Array.getElem?_setIfInBounds]
        by_cases same : head = place
        · subst same
          rw [held]
          simp [fresh, inside]
        · simp [same, Ne.symm same]

/-- Bypassing a destination sets one link, that of the place in front of it. -/
theorem Graph.bypass_eq {destinations : Array Destination} {first : Option Nat}
    {places : List Nat} {previous removed most : Nat} {node : Destination}
    (path : Path destinations first (places ++ [previous]) (some removed))
    (apart : removed ∉ places ++ [previous]) (held : destinations[previous]? = some node)
    (time : places.length < most) (after : Option Nat) :
    Graph.bypass removed after most first destinations =
      .ok (destinations.setIfInBounds previous { node with next := after }) := by
  -- The removed place is not visited before, so no earlier link can lead to it.
  induction places generalizing first most with
  | nil =>
    cases most with
    | zero => simp at time
    | succ most =>
      -- The first place leads to the removed one already, so its link is set at once.
      obtain ⟨rfl, next, leads, rest⟩ := Path.cons_iff.mp path
      obtain rfl := Path.nil_iff.mp rest
      have leads : node.next = some removed := by simpa [linkAt, held] using leads
      have inside := (Array.getElem?_eq_some_iff.mp held).1
      simp [bypass, fetch_eq_ok held, leads, store_eq_ok inside]
  | cons head places ih =>
    cases most with
    | zero => simp at time
    | succ most =>
      obtain ⟨rfl, next, leads, rest⟩ := Path.cons_iff.mp path
      obtain ⟨front, found, rfl⟩ := Option.map_eq_some_iff.mp leads
      have elsewhere : front.next ≠ some removed := by
        intro same
        rw [same] at rest
        exact apart (List.mem_cons_of_mem _ (rest.start_mem (by simp)))
      have later := ih rest (fun visited => apart (List.mem_cons_of_mem _ visited))
        (by simpa using time)
      simpa [bypass, fetch_eq_ok found, elsewhere] using later

end Mixdown.Splitter
