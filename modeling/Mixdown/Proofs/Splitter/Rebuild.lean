import Mathlib.Data.List.Nodup
import Mathlib.Logic.Function.Basic
import Mixdown.Proofs.Splitter.Chains

/-! Rebuilding a splitter's chain assigns the listed destinations to it and to no other. -/

namespace Mixdown.Splitter

/-- Replacing an element by one that looks the same leaves the look of the whole. -/
theorem map_set_same {items : Array α} {index : Nat} {item changed : α} (look : α → β)
    (held : items[index]? = some item) (same : look changed = look item) :
    (items.setIfInBounds index changed).map look = items.map look := by
  -- Only the replaced element could differ, and it does not.
  apply Array.ext_getElem?
  intro other
  obtain ⟨inside, found⟩ := Array.getElem?_eq_some_iff.mp held
  by_cases here : index = other
  · subst here
    simp [inside, same, found]
  · simp [here]

/-- An element of one of two arrays that look the same stands for one of the other. -/
theorem held_of_map {items changed : Array α} {look : α → β} (same : changed.map look = items.map look)
    {index : Nat} {item : α} (held : changed[index]? = some item) :
    ∃ other, items[index]? = some other ∧ look other = look item := by
  have seen : (items.map look)[index]? = some (look item) := by
    rw [← same, Array.getElem?_map, held, Option.map_some]
  rw [Array.getElem?_map] at seen
  exact Option.map_eq_some_iff.mp seen

namespace Graph

/-- The head of a splitter's chain. -/
def head (graph : Graph) (splitter : Nat) : Option Nat :=
  graph.splitters[splitter]?.bind Splitter.head

/-- The number of destinations that a splitter claims to have. -/
def count (graph : Graph) (splitter : Nat) : Nat :=
  (graph.splitters[splitter]?.map Splitter.count).getD 0

/-- The graph without its links. -/
def bare (graph : Graph) : Graph :=
  { graph with
    splitters := graph.splitters.map (·.relink none 0)
    destinations := graph.destinations.map Destination.detach }

/-- A graph's links and counts are those of the given chains. -/
structure Represents (graph : Graph) (chains : Chains) : Prop where
  woven : Woven graph.destinations graph.head chains
  counted : ∀ splitter, graph.count splitter = (chains splitter).length

/-- All links but those into the chain under construction are in place. -/
structure Drafted (graph : Graph) (splitter : Nat) (draft : Draft) (chains : Chains) : Prop where
  woven : Woven graph.destinations (Function.update graph.head splitter draft.head) chains
  counted : ∀ other, other ≠ splitter → graph.count other = (chains other).length
  tail : draft.tail = (chains splitter).getLast?
  count : draft.count = (chains splitter).length

/-- Graphs that differ in links only have equally many destinations. -/
theorem destinations_size_of_bare {graph changed : Graph} (same : changed.bare = graph.bare) :
    changed.destinations.size = graph.destinations.size := by
  simpa [bare] using congrArg (fun graph => graph.destinations.size) same

/-- Graphs that differ in links only have equally many splitters. -/
theorem splitters_size_of_bare {graph changed : Graph} (same : changed.bare = graph.bare) :
    changed.splitters.size = graph.splitters.size := by
  simpa [bare] using congrArg (fun graph => graph.splitters.size) same

/-- Linking a splitter anew changes its head and no other. -/
theorem head_relink {graph : Graph} {splitter : Nat} {held : Splitter}
    (found : graph.splitters[splitter]? = some held) (destinations : Array Destination)
    (head : Option Nat) (count : Nat) :
    Graph.head { graph with
      destinations, splitters := graph.splitters.setIfInBounds splitter (held.relink head count) } =
        Function.update graph.head splitter head := by
  -- Only the relinked splitter has another head, and it is one of the graph's.
  funext other
  have inside := (Array.getElem?_eq_some_iff.mp found).1
  by_cases same : splitter = other
  · subst same
    simp [Graph.head, inside, Splitter.relink]
  · simp [Graph.head, same, Ne.symm same]

/-- Linking a splitter anew changes its count and no other. -/
theorem count_relink {graph : Graph} {splitter : Nat} {held : Splitter}
    (found : graph.splitters[splitter]? = some held) (destinations : Array Destination)
    (head : Option Nat) (count : Nat) :
    Graph.count { graph with
      destinations, splitters := graph.splitters.setIfInBounds splitter (held.relink head count) } =
        Function.update graph.count splitter count := by
  -- Only the relinked splitter has another count, and it is one of the graph's.
  funext other
  have inside := (Array.getElem?_eq_some_iff.mp found).1
  by_cases same : splitter = other
  · subst same
    simp [Graph.count, inside, Splitter.relink]
  · simp [Graph.count, same, Ne.symm same]

end Graph

namespace Woven

variable {destinations changed : Array Destination} {heads headsAfter : Nat → Option Nat}
  {chains : Chains} {owner removed : Nat} {node : Destination}

/-- A chain is cut at each of its places into two parts that are joined once the place is gone. -/
theorem split_at (woven : Woven destinations heads chains) (visited : removed ∈ chains owner) :
    ∃ before after, chains owner = before ++ removed :: after ∧ removed ∉ before ∧
      removed ∉ after ∧ chains.without removed owner = before ++ after := by
  -- Every place occurs once, so cutting at it leaves two parts without it.
  obtain ⟨before, after, whole⟩ := List.append_of_mem visited
  have distinct := woven.distinct owner
  rw [whole, List.nodup_append] at distinct
  obtain ⟨-, behind, disjoint⟩ := distinct
  have early : removed ∉ before := fun here => disjoint removed here removed (by simp) rfl
  have late : removed ∉ after := (List.nodup_cons.mp behind).1
  refine ⟨before, after, whole, early, late, ?_⟩
  simp only [Chains.without, whole, List.filter_append, filter_ne_eq early]
  simpa using filter_ne_eq late

/-- A place is gone from all chains once its owner's chain leads past it and it is detached. -/
theorem drop_place (woven : Woven destinations heads chains) (visited : removed ∈ chains owner)
    (owners : ∀ place, changed[place]?.bind Destination.owner =
      if place = removed then none else destinations[place]?.bind Destination.owner)
    (loose : ∀ (place : Nat) (node : Destination), changed[place]? = some node →
      node.owner = none → node.next = none)
    (past : Path changed (headsAfter owner) (chains.without removed owner) none)
    (heads_kept : ∀ other, other ≠ owner → headsAfter other = heads other)
    (links_kept : ∀ place, place ∉ chains owner → linkAt changed place = linkAt destinations place) :
    Woven changed headsAfter (chains.without removed) := by
  -- The place is on its owner's chain only, so no other chain changes.
  have alone : chains.without removed =
      Function.update chains owner (chains.without removed owner) := by
    funext other
    by_cases same : other = owner
    · simp [same]
    · rw [Function.update_of_ne same]
      exact Chains.without_eq fun here => same (woven.apart here visited)
  rw [alone]
  refine woven.replace past ((woven.distinct owner).filter _) ?_ ?_ loose heads_kept
    fun place absent _ => links_kept place absent
  · intro place
    rw [owners place, Chains.without, List.mem_filter, woven.owned owner place]
    by_cases same : place = removed <;> simp [same]
  · intro other apart place
    rw [owners place, woven.owned other place]
    by_cases same : place = removed
    · simp [same, (woven.owned owner removed).mp visited, Ne.symm apart]
    · simp [same]

/-- The first place of a chain is removed by making the second one the head. -/
theorem unlink_head (woven : Woven destinations heads chains) (visited : removed ∈ chains owner)
    (held : destinations[removed]? = some node) (first : heads owner = some removed) :
    Woven (destinations.setIfInBounds removed node.detach)
      (Function.update heads owner node.next) (chains.without removed) := by
  have inside := (Array.getElem?_eq_some_iff.mp held).1
  obtain ⟨before, after, whole, early, late, joined⟩ := woven.split_at visited
  have path := woven.linked owner
  rw [whole, first] at path
  obtain ⟨middle, front, back⟩ := Path.append_iff.mp path
  obtain ⟨rfl, next, leads, rest⟩ := Path.cons_iff.mp back
  obtain rfl : node.next = next := by simpa [linkAt, held] using leads
  -- A chain that begins with the removed place has nothing before it.
  obtain rfl : before = [] := by
    by_contra visits
    exact early (front.start_mem visits)
  refine woven.drop_place visited (owner_set inside node.detach)
    (loose_set woven.loose inside fun _ => rfl) ?_ ?_ ?_
  · rw [joined, Function.update_self]
    exact rest.congr fun place here =>
      linkAt_set_ne (by rintro rfl; exact late here) node.detach
  · intro other apart
    exact Function.update_of_ne apart _ _
  · intro place absent
    exact linkAt_set_ne (by rintro rfl; exact absent visited) node.detach

/-- A later place of a chain is reached from the place in front of it. -/
theorem split_behind (woven : Woven destinations heads chains) (visited : removed ∈ chains owner)
    (held : destinations[removed]? = some node) (later : heads owner ≠ some removed) :
    ∃ start previous after leader, chains owner = start ++ [previous] ++ removed :: after ∧
      destinations[previous]? = some leader ∧ leader.owner = some owner ∧
      Path destinations (heads owner) (start ++ [previous]) (some removed) ∧
      Path destinations node.next after none := by
  obtain ⟨before, after, whole, -, -, -⟩ := woven.split_at visited
  have path := woven.linked owner
  rw [whole] at path
  obtain ⟨middle, front, back⟩ := Path.append_iff.mp path
  obtain ⟨rfl, next, leads, rest⟩ := Path.cons_iff.mp back
  obtain rfl : node.next = next := by simpa [linkAt, held] using leads
  -- The removed place is not the head, so some place is in front of it.
  have visits : before ≠ [] := by
    rintro rfl
    exact later (Path.nil_iff.mp front)
  obtain ⟨start, previous, rfl⟩ : ∃ start previous, before = start ++ [previous] :=
    ⟨before.dropLast, before.getLast visits, (List.dropLast_append_getLast visits).symm⟩
  have earlier : previous ∈ chains owner := by simp [whole]
  have within := (woven.linked owner).inside earlier
  have found := Array.getElem?_eq_getElem within
  generalize destinations[previous] = leader at found
  have owned : leader.owner = some owner := by
    simpa [found] using (woven.owned owner previous).mp earlier
  exact ⟨start, previous, after, leader, whole, found, owned, front, rest⟩

/-- A later place of a chain is removed by leading past it from the place in front. -/
theorem unlink_behind (woven : Woven destinations heads chains) (visited : removed ∈ chains owner)
    (held : destinations[removed]? = some node) (later : heads owner ≠ some removed) :
    ∃ changed, Graph.bypass removed node.next destinations.size (heads owner)
        (destinations.setIfInBounds removed node.detach) = .ok changed ∧
      Woven changed heads (chains.without removed) ∧
      changed.map Destination.detach = destinations.map Destination.detach := by
  have inside := (Array.getElem?_eq_some_iff.mp held).1
  obtain ⟨start, previous, after, leader, whole, found, owned, front, rest⟩ :=
    woven.split_behind visited held later
  have within := (Array.getElem?_eq_some_iff.mp found).1
  have earlier : previous ∈ chains owner := by simp [whole]
  -- Every place occurs once, so the two stored places are on neither of the remaining parts.
  have distinct := woven.distinct owner
  rw [whole] at distinct
  obtain ⟨ahead, behind, disjoint⟩ := List.nodup_append.mp distinct
  have early : removed ∉ start ++ [previous] := fun here =>
    disjoint removed here removed (by simp) rfl
  have late : removed ∉ after := (List.nodup_cons.mp behind).1
  have fresh : previous ∉ start := fun here =>
    (List.nodup_append.mp ahead).2.2 previous here previous (by simp) rfl
  have past : previous ∉ after := fun here =>
    disjoint previous (by simp) previous (List.mem_cons_of_mem removed here) rfl
  have different : removed ≠ previous := by
    rintro rfl
    simp at early
  have detached : (destinations.setIfInBounds removed node.detach)[previous]? = some leader := by
    simpa [different] using found
  have steady : ∀ place, place ≠ removed →
      linkAt (destinations.setIfInBounds removed node.detach) place = linkAt destinations place :=
    fun place apart => linkAt_set_ne (Ne.symm apart) node.detach
  have approach := front.congr fun place here => steady place (by rintro rfl; exact early here)
  have time : start.length < (destinations.setIfInBounds removed node.detach).size := by
    have length := woven.length_le owner
    simp only [whole, List.length_append, List.length_cons] at length
    simp only [Array.size_setIfInBounds]
    omega
  have run := Graph.bypass_eq approach early detached time node.next
  rw [Array.size_setIfInBounds] at run
  refine ⟨_, run, woven.drop_place visited ?_ ?_ ?_ (fun _ _ => rfl) ?_, ?_⟩
  · intro place
    rw [owner_set_same detached { leader with next := node.next } rfl, owner_set inside]
    rfl
  · -- The place in front has an owner, and the removed one has lost its link.
    refine loose_set (loose_set woven.loose inside fun _ => rfl) (by simpa using within) ?_
    intro free
    rw [show ({ leader with next := node.next } : Destination).owner = some owner from owned] at free
    cases free
  · have joined : chains.without removed owner = start ++ [previous] ++ after := by
      simp only [Chains.without, whole, List.filter_append _ (removed :: after), filter_ne_eq early]
      simpa using filter_ne_eq late
    rw [joined]
    refine Path.append_iff.mpr ⟨node.next, approach.redirect ?_ ?_, rest.congr ?_⟩
    · intro place here
      exact linkAt_set_ne (by rintro rfl; exact fresh here) _
    · exact linkAt_set_self (by simpa using within) _
    · intro place here
      rw [linkAt_set_ne (by rintro rfl; exact past here)]
      exact steady place (by rintro rfl; exact late here)
  · intro place absent
    rw [linkAt_set_ne (by rintro rfl; exact absent earlier)]
    exact steady place (by rintro rfl; exact absent visited)
  · rw [map_set_same Destination.detach detached (by rfl),
      map_set_same Destination.detach held (by rfl)]

/-- A destination on no chain is put behind the last place of one. -/
theorem attach (woven : Woven destinations heads chains) {splitter place : Nat}
    {node : Destination} (held : destinations[place]? = some node) (free : node.owner = none)
    {head : Option Nat} (linked : Path changed head (chains splitter ++ [place]) none)
    (owners : ∀ other, changed[other]?.bind Destination.owner =
      if other = place then some splitter else destinations[other]?.bind Destination.owner)
    (loose : ∀ (other : Nat) (node : Destination), changed[other]? = some node →
      node.owner = none → node.next = none)
    (links_kept : ∀ other, other ∉ chains splitter → other ≠ place →
      linkAt changed other = linkAt destinations other) :
    Woven changed (Function.update heads splitter head)
      (Function.update chains splitter (chains splitter ++ [place])) := by
  -- A loose place is on no chain, so that it cannot appear twice on the one that it joins.
  have absent : ∀ other, place ∉ chains other := fun other => woven.not_mem_of_loose held free
  refine woven.replace (by simpa using linked) ?_ ?_ ?_ loose
    (fun other apart => Function.update_of_ne apart _ _) ?_
  · exact List.nodup_append.mpr ⟨woven.distinct splitter, by simp, by
      rintro other here _ (_ | ⟨_, ⟨⟩⟩) rfl
      exact absent splitter here⟩
  · intro other
    rw [owners other, List.mem_append, woven.owned splitter other]
    by_cases same : other = place <;> simp [same]
  · -- The other chains have never held the new place, and nothing else has changed its owner.
    intro another apart other
    rw [owners other, woven.owned another other]
    by_cases same : other = place
    · simp [same, held, free, Ne.symm apart]
    · simp [same]
  · intro other old fresh
    exact links_kept other old (by simpa [old] using fresh)

/-- The first destination of a chain becomes its head. -/
theorem attach_head (woven : Woven destinations heads chains) {splitter place : Nat}
    (held : destinations[place]? = some node) (free : node.owner = none)
    (empty : chains splitter = []) :
    Woven (destinations.setIfInBounds place { node with owner := some splitter })
      (Function.update heads splitter (some place))
      (Function.update chains splitter (chains splitter ++ [place])) := by
  -- A loose place has no link of its own, and so it ends the chain that it begins.
  have inside := (Array.getElem?_eq_some_iff.mp held).1
  have ended : node.next = none := woven.loose place node held free
  refine woven.attach held free ?_ (owner_set inside _) (loose_set woven.loose inside fun _ => ended)
    fun other _ apart => linkAt_set_ne (Ne.symm apart) _
  simp [empty, linkAt, inside, ended]

/-- A later destination of a chain is linked from the one that was last before. -/
theorem attach_behind (woven : Woven destinations heads chains) {splitter place tail : Nat}
    {leader : Destination} {start : List Nat} (held : destinations[place]? = some node)
    (free : node.owner = none) (whole : chains splitter = start ++ [tail])
    (found : destinations[tail]? = some leader) (apart : tail ≠ place) :
    Woven ((destinations.setIfInBounds tail { leader with next := some place }).setIfInBounds place
        { node with owner := some splitter }) heads
      (Function.update chains splitter (chains splitter ++ [place])) := by
  have inside := (Array.getElem?_eq_some_iff.mp held).1
  have within := (Array.getElem?_eq_some_iff.mp found).1
  have ended : node.next = none := woven.loose place node held free
  have absent : place ∉ chains splitter := woven.not_mem_of_loose held free
  have last : tail ∈ chains splitter := by simp [whole]
  have owned : leader.owner = some splitter := by
    simpa [found] using (woven.owned splitter tail).mp last
  -- The head stays, since the chain has a place before the new one already.
  rw [← Function.update_eq_self splitter heads]
  refine woven.attach held free ?_ ?_ ?_ ?_
  · have path := woven.linked splitter
    rw [whole] at path ⊢
    have distinct := woven.distinct splitter
    rw [whole] at distinct
    refine Path.append_iff.mpr ⟨some place, path.redirect ?_ ?_, ?_⟩
    · intro other here
      have different : tail ≠ other := by
        rintro rfl
        exact (List.nodup_append.mp distinct).2.2 _ here _ (by simp) rfl
      have outside : place ≠ other := by
        rintro rfl
        exact absent (by simp [whole, here])
      rw [linkAt_set_ne outside, linkAt_set_ne different]
    · rw [linkAt_set_ne (Ne.symm apart)]
      exact linkAt_set_self within _
    · simp [linkAt, inside, ended]
  · intro other
    rw [owner_set (by simpa using inside),
      owner_set_same found { leader with next := some place } rfl]
  · -- Neither of the two stored destinations is without an owner.
    refine loose_set (loose_set woven.loose within ?_) (by simpa using inside) fun _ => ended
    intro unowned
    rw [show ({ leader with next := some place } : Destination).owner = some splitter from owned]
      at unowned
    cases unowned
  · intro other old different
    rw [linkAt_set_ne (Ne.symm different), linkAt_set_ne (by rintro rfl; exact old last)]

end Woven

namespace Graph

variable {graph : Graph} {splitter : Nat} {draft : Draft} {chains : Chains}

/-- The splitters of graphs with one bare form differ in their links only. -/
theorem bare_set_splitter {held : Splitter} (found : graph.splitters[splitter]? = some held)
    (head : Option Nat) (count : Nat) {destinations : Array Destination}
    (same : destinations.map Destination.detach = graph.destinations.map Destination.detach) :
    Graph.bare { graph with
      destinations
      splitters := graph.splitters.setIfInBounds splitter (held.relink head count) } =
        graph.bare := by
  simp only [bare, same, map_set_same (Splitter.relink · none 0) found
    (show (held.relink head count).relink none 0 = held.relink none 0 from rfl)]

/-- Only splitters that exist have chains. -/
theorem keeper_of_mem {owner removed : Nat} (drafted : Drafted graph splitter draft chains)
    (other : owner ≠ splitter) (visited : removed ∈ chains owner) :
    ∃ keeper, graph.splitters[owner]? = some keeper ∧
      Function.update graph.head splitter draft.head owner = keeper.head := by
  -- A chain with places on it begins somewhere, which a splitter that is not there cannot tell.
  by_contra missing
  have absent : graph.splitters[owner]? = none := by
    refine Option.eq_none_iff_forall_ne_some.mpr fun keeper kept => missing ⟨keeper, kept, ?_⟩
    simp [other, Graph.head, kept]
  have headless : Function.update graph.head splitter draft.head owner = none := by
    simp [other, Graph.head, absent]
  simp [drafted.woven.chain_of_no_head headless] at visited

/-- An owner that led past a place counts one destination less, and the draft stays as it is. -/
theorem drop_drafted {owner removed : Nat} (drafted : Drafted graph splitter draft chains)
    (other : owner ≠ splitter) (visited : removed ∈ chains owner) {keeper : Splitter}
    (kept : graph.splitters[owner]? = some keeper) {destinations : Array Destination}
    {head : Option Nat}
    (woven : Woven destinations
      (Function.update (Function.update graph.head splitter draft.head) owner head)
      (chains.without removed)) :
    Drafted { graph with
      destinations
      splitters := graph.splitters.setIfInBounds owner (keeper.relink head (keeper.count - 1)) }
      splitter draft (chains.without removed) := by
  have fewer : keeper.count - 1 = (chains.without removed owner).length := by
    obtain ⟨before, after, whole, -, -, joined⟩ := drafted.woven.split_at visited
    have counted := drafted.counted owner other
    simp only [Graph.count, kept, Option.map_some, Option.getD_some, whole, List.length_append,
      List.length_cons] at counted
    simp only [joined, List.length_append]
    omega
  -- The place was on the owner's chain only, so the draft and all others keep theirs.
  have elsewhere : ∀ another, another ≠ owner →
      chains.without removed another = chains another := fun another apart =>
    Chains.without_eq fun there => apart (drafted.woven.apart there visited)
  constructor
  · rwa [head_relink kept, Function.update_comm other]
  · intro another apart
    rw [count_relink kept]
    by_cases here : another = owner
    · subst here
      simpa using fewer
    · rw [Function.update_of_ne here, elsewhere another here]
      exact drafted.counted another apart
  · rw [elsewhere splitter other.symm]
    exact drafted.tail
  · rw [elsewhere splitter other.symm]
    exact drafted.count

/-- A destination of another chain leaves it, and the draft stays as it is. -/
theorem unlink_drafted {owner removed : Nat} (drafted : Drafted graph splitter draft chains)
    (other : owner ≠ splitter) (visited : removed ∈ chains owner) :
    ∃ changed, graph.unlink owner removed = .ok changed ∧
      Drafted changed splitter draft (chains.without removed) ∧ changed.bare = graph.bare := by
  have woven := drafted.woven
  have inside := (woven.linked owner).inside visited
  have held := Array.getElem?_eq_getElem inside
  generalize graph.destinations[removed] = node at held
  -- The splitter is not the one that is being rebuilt, so that its head is the one that is stored.
  obtain ⟨keeper, kept, first⟩ := keeper_of_mem drafted other visited
  have place := (Array.getElem?_eq_some_iff.mp kept).1
  by_cases begins : keeper.head = some removed
  · -- The second place of the chain becomes its head.
    have gone := woven.unlink_head visited held (first.trans begins)
    refine ⟨_, ?_, drop_drafted drafted other visited kept gone,
      bare_set_splitter kept _ _ (map_set_same Destination.detach held (by rfl))⟩
    simp [unlink, fetch_eq_ok held, fetch_eq_ok kept, store_eq_ok inside, store_eq_ok place, begins,
      Destination.detach]
  · -- The head stays, and the place in front of the removed one leads past it.
    obtain ⟨destinations, run, gone, same⟩ :=
      woven.unlink_behind visited held (by rw [first]; exact begins)
    rw [first] at run
    have heads : Function.update (Function.update graph.head splitter draft.head) owner keeper.head =
        Function.update graph.head splitter draft.head := by
      rw [← first, Function.update_eq_self]
    rw [← heads] at gone
    refine ⟨_, ?_, drop_drafted drafted other visited kept gone, bare_set_splitter kept _ _ same⟩
    simp only [unlink, fetch_eq_ok held, fetch_eq_ok kept, store_eq_ok inside, ok_bind, begins,
      if_false, Array.size_setIfInBounds]
    rw [show ({ node with next := none, owner := none } : Destination) = node.detach from rfl, run]
    simp [store_eq_ok place]

/-- Changing a destination that is there stores it back. -/
theorem change_eq_ok {items : Array α} {index : Nat} {item : α} (held : items[index]? = some item)
    (modify : α → α) :
    change items index modify = .ok (items.setIfInBounds index (modify item)) := by
  simp [change, fetch_eq_ok held, store_eq_ok (Array.getElem?_eq_some_iff.mp held).1]

/-- The draft takes up a destination that is on no chain. -/
theorem attach_drafted {place : Nat} {node : Destination}
    (drafted : Drafted graph splitter draft chains) (held : graph.destinations[place]? = some node)
    (free : node.owner = none) :
    ∃ longer attached, graph.attach splitter draft place = .ok (longer, attached) ∧
      Drafted attached splitter longer
        (Function.update chains splitter (chains splitter ++ [place])) ∧
      attached.bare = graph.bare := by
  have woven := drafted.woven
  -- Both ways of linking leave the other splitters' heads and counts alone.
  have assemble : ∀ (destinations : Array Destination) (head : Option Nat),
      Woven destinations (Function.update graph.head splitter head)
        (Function.update chains splitter (chains splitter ++ [place])) →
      destinations.map Destination.detach = graph.destinations.map Destination.detach →
      Drafted { graph with destinations } splitter ⟨head, some place, draft.count + 1⟩
        (Function.update chains splitter (chains splitter ++ [place])) ∧
      Graph.bare { graph with destinations } = graph.bare := by
    intro destinations head woven detached
    refine ⟨⟨woven, fun other apart => ?_, by simp, by simp [drafted.count]⟩, ?_⟩
    · rw [Function.update_of_ne apart]
      exact drafted.counted other apart
    · simp only [bare, detached]
  rcases List.eq_nil_or_concat' (chains splitter) with empty | ⟨start, tail, whole⟩
  · -- The first place becomes the head.
    have untailed : draft.tail = none := by simp [drafted.tail, empty]
    have run : graph.attach splitter draft place = .ok (⟨some place, some place, draft.count + 1⟩,
        { graph with
          destinations :=
            graph.destinations.setIfInBounds place { node with owner := some splitter } }) := by
      simp only [attach, Draft.tie, untailed, change_eq_ok held, ok_bind, pure_eq_ok]
    have attached := woven.attach_head held free empty
    rw [Function.update_idem] at attached
    exact ⟨_, _, run, assemble _ _ attached (map_set_same Destination.detach held (by rfl))⟩
  · -- A later place is linked from the one that was last before.
    have tailed : draft.tail = some tail := by simp [drafted.tail, whole]
    have last : tail ∈ chains splitter := by simp [whole]
    have apart : tail ≠ place := by
      rintro rfl
      exact woven.not_mem_of_loose held free last
    have within := (woven.linked splitter).inside last
    have found := Array.getElem?_eq_getElem within
    generalize graph.destinations[tail] = leader at found
    have unmoved : (graph.destinations.setIfInBounds tail { leader with next := some place })[place]? =
        some node := by simpa [apart] using held
    have run : graph.attach splitter draft place = .ok (⟨draft.head, some place, draft.count + 1⟩,
        { graph with
          destinations :=
            (graph.destinations.setIfInBounds tail { leader with next := some place }).setIfInBounds
              place { node with owner := some splitter } }) := by
      simp only [attach, Draft.tie, tailed, change_eq_ok found, change_eq_ok unmoved, ok_bind,
        pure_eq_ok]
    refine ⟨_, _, run, assemble _ _ (woven.attach_behind held free whole found apart) ?_⟩
    rw [map_set_same Destination.detach unmoved (by rfl),
      map_set_same Destination.detach found (by rfl)]

/-- The places that identifiers name for a chain: up to the first that does not exist, each once. -/
def listed (size : Nat) (ids : List Nat) : List Nat := (ids.takeWhile (· < size)).eraseDups

/-- A destination that the draft does not hold leaves the chain it is on, if there is one. -/
theorem withdraw_drafted {place : Nat} {node : Destination}
    (drafted : Drafted graph splitter draft chains) (held : graph.destinations[place]? = some node)
    (foreign : node.owner ≠ some splitter) :
    ∃ freed released,
      graph.withdraw node.owner place = .ok freed ∧
      Drafted freed splitter draft (chains.without place) ∧
      freed.destinations[place]? = some released ∧ released.owner = none ∧
      freed.bare = graph.bare := by
  cases owner : node.owner with
  | none =>
    -- Without an owner it is on no chain, so nothing has to change.
    have alone : chains.without place = chains := by
      funext other
      exact Chains.without_eq (drafted.woven.not_mem_of_loose held owner)
    exact ⟨graph, node, rfl, alone.symm ▸ drafted, held, owner, rfl⟩
  | some keeper =>
    have other : keeper ≠ splitter := by
      rintro rfl
      exact foreign owner
    have visited : place ∈ chains keeper :=
      (drafted.woven.owned keeper place).mpr (by simp [held, owner])
    obtain ⟨freed, run, off, same⟩ := unlink_drafted drafted other visited
    have inside : place < freed.destinations.size := by
      rw [destinations_size_of_bare same]
      exact (Array.getElem?_eq_some_iff.mp held).1
    refine ⟨freed, _, run, off, Array.getElem?_eq_getElem inside, ?_, same⟩
    -- The place is on no chain any more, so no splitter can own it.
    refine Option.eq_none_iff_forall_ne_some.mpr fun claimant claimed => ?_
    have here := (off.woven.owned claimant place).mpr (by simp [inside, claimed])
    simp [Chains.without] at here

/-- Identifiers are linked in order behind what the draft holds, unless it holds them already. -/
theorem link_eq (ids : List Nat) (drafted : Drafted graph splitter draft chains) :
    ∃ final linked, link splitter ids draft graph = .ok (final, linked) ∧
      Drafted linked splitter final (chains.extend splitter
        ((ids.takeWhile (· < graph.destinations.size)).filter (· ∉ chains splitter)).eraseDups) ∧
      linked.bare = graph.bare := by
  -- The induction carries the invariant of a chain under construction from one identifier on.
  induction ids generalizing graph draft chains with
  | nil => exact ⟨draft, graph, rfl, by simpa using drafted, rfl⟩
  | cons id ids ih =>
    rcases Nat.lt_or_ge id graph.destinations.size with inside | beyond
    · have held := Array.getElem?_eq_getElem inside
      generalize graph.destinations[id] = node at held
      have owned := drafted.woven.owned splitter id
      simp only [held, Option.bind_some] at owned
      rw [List.takeWhile_cons_of_pos (by simpa using inside)]
      by_cases mine : node.owner = some splitter
      · -- A place that the draft holds already is passed over.
        have visited : id ∈ chains splitter := owned.mpr mine
        obtain ⟨final, linked, run, after, same⟩ := ih drafted
        refine ⟨final, linked, ?_, ?_, same⟩
        · simpa [link, held, mine] using run
        · rwa [List.filter_cons_of_neg (by simpa using visited)]
      · -- Any other place leaves its chain, if it is on one, and is put behind the draft.
        have fresh : id ∉ chains splitter := fun visited => mine (owned.mp visited)
        obtain ⟨freed, released, unlinked, off, cell, loose, kept⟩ :=
          withdraw_drafted drafted held mine
        obtain ⟨longer, attached, tied, on, kept'⟩ := attach_drafted off cell loose
        rw [Chains.without_eq fresh, ← Chains.extend_one fresh] at on
        have bareness := kept'.trans kept
        obtain ⟨final, linked, run, after, same⟩ := ih on
        refine ⟨final, linked, ?_, ?_, same.trans bareness⟩
        · simp only [link, held, mine, if_false, unlinked, ok_bind, tied]
          exact run
        · -- What is new after this identifier is what was new before, less the identifier itself.
          rw [List.filter_cons_of_pos (by simpa using fresh), List.eraseDups_cons,
            List.filter_filter]
          rw [Chains.extend_append, destinations_size_of_bare bareness] at after
          have remaining : (fun other => (!other == id) && decide (other ∉ chains splitter)) =
              fun other => decide (other ∉ chains.extend splitter [id] splitter) := by
            funext other
            rw [Bool.eq_iff_iff]
            simp [Chains.extend, and_comm]
          rw [remaining]
          exact after
    · -- An identifier beyond the pool ends the walk over all of them.
      refine ⟨draft, graph, ?_, ?_, rfl⟩
      · have missing : graph.destinations[id]? = none := Array.getElem?_eq_none beyond
        simp [link, missing]
      · rw [List.takeWhile_cons_of_neg (by simpa using beyond)]
        simpa using drafted

/-- Rebuilding a splitter's chain makes it the listed places, which leave all other chains. -/
theorem rebuild_eq (represents : Represents graph chains) (inside : splitter < graph.splitters.size)
    (ids : List Nat) :
    ∃ rebuilt, graph.rebuild splitter ids = .ok rebuilt ∧
      Represents rebuilt (chains.assign splitter (listed graph.destinations.size ids)) ∧
      rebuilt.bare = graph.bare := by
  have found := Array.getElem?_eq_getElem inside
  generalize graph.splitters[splitter] = held at found
  have first : graph.head splitter = held.head := by simp [head, found]
  obtain ⟨released, freed, woven, detached⟩ := represents.woven.release splitter
  rw [first] at freed
  -- The emptied splitter holds an empty draft, behind which the identifiers are linked.
  have drafted : Drafted { graph with
      destinations := released
      splitters := graph.splitters.setIfInBounds splitter (held.relink none 0) }
      splitter ⟨none, none, 0⟩ (chains.assign splitter []) := by
    refine ⟨?_, fun other apart => ?_, by simp [Chains.assign], by simp [Chains.assign]⟩
    · rw [head_relink found, Function.update_idem]
      exact woven
    · rw [count_relink found, Function.update_of_ne apart]
      simpa [Chains.assign, apart] using represents.counted other
  obtain ⟨draft, linked, run, after, same⟩ := link_eq ids drafted
  -- Nothing was on the emptied chain, so every listed identifier is new to it.
  have size : released.size = graph.destinations.size := by
    simpa using congrArg Array.size detached
  have listing : (chains.assign splitter []).extend splitter
      ((ids.takeWhile (· < released.size)).filter
        (· ∉ chains.assign splitter [] splitter)).eraseDups =
      chains.assign splitter (listed graph.destinations.size ids) := by
    rw [Chains.extend_assign_nil, size]
    simp [listed, Chains.assign]
  have bareness := same.trans (bare_set_splitter found none 0 detached)
  -- The finished draft is written into the splitter, with its head and its count.
  have within : splitter < linked.splitters.size := by
    rw [splitters_size_of_bare bareness]
    exact inside
  have last := Array.getElem?_eq_getElem within
  generalize linked.splitters[splitter] = keeper at last
  refine ⟨{ linked with
      splitters := linked.splitters.setIfInBounds splitter (keeper.relink draft.head draft.count) },
    ?_, ⟨?_, fun other => ?_⟩, (bare_set_splitter last _ _ rfl).trans bareness⟩
  · simp only [rebuild, fetch_eq_ok found, freed, store_eq_ok inside, ok_bind]
    rw [run]
    simp [change_eq_ok last]
  · rw [head_relink last]
    have woven := after.woven
    rwa [listing] at woven
  · rw [count_relink last]
    by_cases here : other = splitter
    · subst here
      rw [Function.update_self, after.count, listing]
    · rw [Function.update_of_ne here, after.counted other here, listing]

end Graph

end Mixdown.Splitter
