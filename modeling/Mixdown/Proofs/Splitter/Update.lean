import Mixdown.Proofs.Splitter.Rebuild
import Mixdown.Proofs.Splitter.Record

/-! An update applies exactly the records that its section is scanned for, in their order. -/

namespace Mixdown.Splitter

/-- A splitter record with the splitter it names and the identifiers that follow it. -/
structure Assignment where
  splitter : Nat
  record : SplitterRecord
  ids : List Nat

/-- What there is in a section for a graph. -/
structure Scan where
  assignments : List Assignment
  /-- The destination records, each with the place it names. -/
  settings : List (Nat × DestinationRecord)
  /-- The bytes from the header to the last record. -/
  size : Nat

/-- The bytes of a section, rounded up. -/
def Scan.length (scan : Scan) : Nat :=
  (scan.size + sectionAlignment - 1) / sectionAlignment * sectionAlignment

/-- The bytes of a splitter record and of all its identifiers. -/
def SplitterRecord.span (record : SplitterRecord) : Nat :=
  SplitterRecord.size + record.count.toNat * identifierSize

/-- No splitter record takes more bytes. -/
def SplitterRecord.largestSpan : Nat := SplitterRecord.size + UInt32.size * identifierSize

/-- The splitter records at the front of a byte string, with the bytes they take. -/
def scanSplitters (splitters : Nat) : (count : Nat) → Bytes → List Assignment × Nat
  | 0, _ => ([], 0)
  | count + 1, bytes =>
    match SplitterRecord.reader bytes with
    | none => ([], 0)
    | some (record, rest) =>
      if record.magic ≠ splitterMagic then ([], 0)
      else match Graph.index? record.id splitters with
        | none => ([], 0)
        | some splitter =>
          let (later, taken) := scanSplitters splitters count (bytes.drop record.span)
          (⟨splitter, record, identifiers record.count.toNat rest⟩ :: later, record.span + taken)

/-- The destination records at the front of a byte string, with the bytes they take. -/
def scanDestinations (destinations : Nat) (filtered : Bool) :
    (count : Nat) → Bytes → List (Nat × DestinationRecord) × Nat
  | 0, _ => ([], 0)
  | count + 1, bytes =>
    match DestinationRecord.reader filtered bytes with
    | none => ([], 0)
    | some (record, rest) =>
      if record.magic ≠ destinationMagic then ([], 0)
      else match Graph.index? record.id destinations with
        | none => ([], 0)
        | some place =>
          let (later, taken) := scanDestinations destinations filtered count rest
          ((place, record) :: later, DestinationRecord.size filtered + taken)

/-- What a byte string says to a graph of a size, if it is a section and the graph is in use. -/
def scan? (splitters destinations : Nat) (filtered : Bool) (bytes : Bytes) : Option Scan :=
  if splitters = 0 ∨ destinations = 0 then none
  else
    match Header.reader bytes with
    | none => none
    | some (header, rest) =>
      if header.magic ≠ headerMagic then none
      else
        let (assignments, taken) :=
          scanSplitters splitters (Graph.declared header.splitters) rest
        let (settings, takenToo) := scanDestinations destinations filtered
          (Graph.declared header.destinations) (rest.drop taken)
        some ⟨assignments, settings, Header.size + taken + takenToo⟩

/-- The identifiers of all parts of a graph, and what the revision grants it. -/
structure Shape where
  splitters : Array Int32
  destinations : Array Int32
  freeLinking : Bool
  volumeReset : Bool
  filtered : Bool

/-- What holds a splitter to its chain. -/
def anchor (splitter : Splitter) : Option Nat × Nat := (splitter.head, splitter.count)

/-- What holds a destination to its chain. -/
def Destination.bond (destination : Destination) : Option Nat × Option Nat :=
  (destination.next, destination.owner)

namespace Destination

variable (destination : Destination) (record : DestinationRecord)

/-- A record never changes a destination's identifier. -/
@[simp] theorem accept_id : (destination.accept record).id = destination.id := by
  simp only [accept, receive, takeFilters]
  split <;> rfl

/-- A record never moves a destination. -/
@[simp] theorem accept_bond : (destination.accept record).bond = destination.bond := by
  simp only [accept, receive, takeFilters]
  split <;> rfl

/-- A record has one effect on and off a chain. -/
theorem accept_detach : (destination.accept record).detach = destination.detach.accept record := by
  by_cases ignored : record.id ≠ destination.id ∨ record.magic ≠ destinationMagic
  · simp only [accept, receive, takeFilters, detach, ignored, if_true]
  · simp only [accept, receive, takeFilters, detach, ignored, if_false]
    rfl

end Destination

/-- Nothing is read from a byte string that has ended. -/
theorem scanSplitters_nil (splitters count : Nat) : scanSplitters splitters count [] = ([], 0) := by
  cases count <;> rfl

/-- Only the identifiers of the last record can be declared beyond the end of the bytes. -/
theorem scanSplitters_le (splitters count : Nat) (bytes : Bytes) :
    (scanSplitters splitters count bytes).2 ≤ bytes.length + SplitterRecord.largestSpan := by
  -- A record that runs beyond the end leaves nothing to read another one from.
  induction count generalizing bytes with
  | zero => simp [scanSplitters]
  | succ count ih =>
    cases read : SplitterRecord.reader bytes with
    | none => simp [scanSplitters, read]
    | some found =>
      obtain ⟨record, rest⟩ := found
      have declared := record.count.toNat_lt
      have span : record.span ≤ SplitterRecord.largestSpan := by
        simp only [SplitterRecord.span, SplitterRecord.largestSpan, SplitterRecord.size,
          identifierSize, UInt32.size]
        omega
      simp only [scanSplitters, read]
      split
      · simp
      · split
        · simp
        · rcases Nat.lt_or_ge bytes.length record.span with short | long
          · -- The bytes have ended within the identifiers of this record.
            rw [List.drop_eq_nil_of_le (by omega), scanSplitters_nil]
            simp only
            omega
          · have later := ih (bytes.drop record.span)
            rw [List.length_drop] at later
            simp only
            omega

/-- Destination records lie within the bytes. -/
theorem scanDestinations_le (destinations : Nat) (filtered : Bool) (count : Nat) (bytes : Bytes) :
    (scanDestinations destinations filtered count bytes).2 ≤ bytes.length := by
  induction count generalizing bytes with
  | zero => simp [scanDestinations]
  | succ count ih =>
    cases read : DestinationRecord.reader filtered bytes with
    | none => simp [scanDestinations, read]
    | some found =>
      obtain ⟨record, rest⟩ := found
      -- A record of fixed size was read whole, so the others are read from what is left.
      obtain ⟨long, rfl⟩ := (DestinationRecord.takes_reader filtered).rest read
      have later := ih (bytes.drop (DestinationRecord.size filtered))
      rw [List.length_drop] at later
      simp only [scanDestinations, read]
      split
      · simp
      · split
        · simp
        · simp only
          omega

/-- What is scanned as a section is a header with the right magic and the records behind it. -/
theorem exists_header_of_scan? {splitters destinations : Nat} {filtered : Bool} {bytes : Bytes}
    {scan : Scan} (found : scan? splitters destinations filtered bytes = some scan) :
    splitters ≠ 0 ∧ destinations ≠ 0 ∧ ∃ header rest, Header.reader bytes = some (header, rest) ∧
      header.magic = headerMagic ∧
      let first := scanSplitters splitters (Graph.declared header.splitters) rest
      let second := scanDestinations destinations filtered (Graph.declared header.destinations)
        (rest.drop first.2)
      scan = ⟨first.1, second.1, Header.size + first.2 + second.2⟩ := by
  -- A scan is missing for a graph that is not in use, without a header and for the wrong magic.
  simp only [scan?] at found
  split at found
  · cases found
  · next used =>
    obtain ⟨used, usedToo⟩ := not_or.mp used
    cases read : Header.reader bytes with
    | none => simp [read] at found
    | some result =>
      obtain ⟨header, rest⟩ := result
      simp only [read] at found
      split at found
      · cases found
      · next magic =>
        exact ⟨used, usedToo, header, rest, rfl, not_not.mp magic, (Option.some.inj found).symm⟩

/-- A section is at most one splitter record longer than the bytes it was read from. -/
theorem scan?_size_le {splitters destinations : Nat} {filtered : Bool} {bytes : Bytes} {scan : Scan}
    (found : scan? splitters destinations filtered bytes = some scan) :
    scan.size ≤ bytes.length + SplitterRecord.largestSpan := by
  -- Only the last splitter record can reach beyond the bytes, as its identifiers need not be there.
  obtain ⟨-, -, header, rest, read, -, rfl⟩ := exists_header_of_scan? found
  obtain ⟨long, rfl⟩ := Header.takes_reader.rest read
  have first := scanSplitters_le splitters (Graph.declared header.splitters)
    (bytes.drop Header.size)
  generalize (scanSplitters splitters (Graph.declared header.splitters)
    (bytes.drop Header.size)).2 = taken at first ⊢
  have second := scanDestinations_le destinations filtered
    (Graph.declared header.destinations) ((bytes.drop Header.size).drop taken)
  simp only [List.length_drop] at first second
  simp only
  omega

namespace Graph

/-- An identifier names the index that equals it, if there is an item. -/
theorem index?_eq_some {id : Int32} {count index : Nat} :
    index? id count = some index ↔ id.toInt = index ∧ index < count := by
  simp only [index?]
  split <;> simp only [Option.some.injEq, reduceCtorEq, false_iff] <;> omega

/-- What no update changes. -/
def shape (graph : Graph) : Shape where
  splitters := graph.splitters.map Splitter.id
  destinations := graph.destinations.map Destination.id
  freeLinking := graph.freeLinking
  volumeReset := graph.volumeReset
  filtered := graph.filtered

/-- The heads, counts, links and owners of a graph. -/
def links (graph : Graph) : Array (Option Nat × Nat) × Array (Option Nat × Option Nat) :=
  (graph.splitters.map anchor, graph.destinations.map Destination.bond)

/-- Every splitter and every destination is identified by its index. -/
structure Named (graph : Graph) : Prop where
  splitters : ∀ (index : Nat) (splitter : Splitter),
    graph.splitters[index]? = some splitter → splitter.id.toInt = index
  destinations : ∀ (index : Nat) (destination : Destination),
    graph.destinations[index]? = some destination → destination.id.toInt = index

/-- What a section says to the graph. -/
def scan? (graph : Graph) (bytes : Bytes) : Option Scan :=
  Splitter.scan? graph.splitters.size graph.destinations.size graph.filtered bytes

/-- The chains after a splitter record. -/
def assigned (graph : Graph) (chains : Chains) (assignment : Assignment) : Chains :=
  chains.assign assignment.splitter (listed graph.destinations.size
    (assignment.ids.take (graph.linkable assignment.record.count.toNat)))

/-- The graph with the rate of a splitter record, whose chain is still the old one. -/
def note (graph : Graph) (assignment : Assignment) : Graph :=
  { graph with
    splitters := graph.splitters.modify assignment.splitter fun splitter =>
      { splitter with rate := assignment.record.rate, isNew := true } }

/-- The graph with the settings of a destination record. -/
def put (graph : Graph) (setting : Nat × DestinationRecord) : Graph :=
  { graph with
    destinations :=
      graph.destinations.modify setting.1 (·.accept (graph.granted setting.2)) }

variable {graph changed : Graph} {chains : Chains}

/-- Graphs that differ in links only have one shape. -/
theorem shape_of_bare (same : changed.bare = graph.bare) : changed.shape = graph.shape := by
  -- A shape has no links in it that could be forgotten.
  have forgotten : ∀ graph : Graph, graph.bare.shape = graph.shape := fun graph => by
    simp [shape, bare, Function.comp_def, Splitter.relink, Destination.detach]
  rw [← forgotten changed, same, forgotten graph]

/-- A shape says how many splitters there are. -/
theorem splitters_size_of_shape (same : changed.shape = graph.shape) :
    changed.splitters.size = graph.splitters.size := by
  simpa [shape] using congrArg (fun shape => shape.splitters.size) same

/-- A shape says how many destinations there are. -/
theorem destinations_size_of_shape (same : changed.shape = graph.shape) :
    changed.destinations.size = graph.destinations.size := by
  simpa [shape] using congrArg (fun shape => shape.destinations.size) same

/-- A shape says which identifiers a splitter may link. -/
theorem assigned_of_shape (same : changed.shape = graph.shape) :
    changed.assigned = graph.assigned := by
  have free : changed.freeLinking = graph.freeLinking := congrArg Shape.freeLinking same
  funext chains assignment
  simp only [assigned, linkable, free, splitters_size_of_shape same,
    destinations_size_of_shape same]

/-- Identifiers that are kept still name what they named before. -/
theorem named_of_shape (same : changed.shape = graph.shape) (named : graph.Named) :
    changed.Named := by
  -- The shape holds the identifiers of both, and nothing else is asked of them.
  constructor
  · intro index splitter held
    obtain ⟨other, found, id⟩ := held_of_map (congrArg Shape.splitters same) held
    rw [← id]
    exact named.splitters index other found
  · intro index destination held
    obtain ⟨other, found, id⟩ := held_of_map (congrArg Shape.destinations same) held
    rw [← id]
    exact named.destinations index other found

/-- A change that an inner view does not see leaves what is seen of all elements. -/
theorem map_modify_same {items : Array α} (index : Nat) {change : α → α} {look : α → β}
    (same : ∀ item, look (change item) = look item) :
    (items.modify index change).map look = items.map look := by
  apply Array.ext_getElem?
  intro other
  by_cases here : index = other <;>
    simp [Array.getElem?_modify, here, Function.comp_def, same]

/-- Storing a changed element is changing it in place. -/
theorem setIfInBounds_eq_modify {items : Array α} {index : Nat} {item : α}
    (held : items[index]? = some item) (change : α → α) :
    items.setIfInBounds index (change item) = items.modify index change := by
  apply Array.ext_getElem?
  intro other
  rw [Array.getElem?_modify, Array.getElem?_setIfInBounds]
  -- At its own index a change of what is held there is the same as writing the changed item.
  by_cases here : index = other
  · subst here
    rw [held]
    simp [(Array.getElem?_eq_some_iff.mp held).1]
  · simp [here]

/-- Links say which chains a graph has. -/
theorem Represents.of_links (represents : Represents graph chains)
    (same : changed.links = graph.links) : Represents changed chains := by
  -- Links show the heads and counts of splitters, and the links and owners of destinations.
  have heads : ∀ splitter, changed.splitters[splitter]?.map anchor =
      graph.splitters[splitter]?.map anchor := fun splitter => by
    rw [← Array.getElem?_map, ← Array.getElem?_map]
    exact congrArg (·.1[splitter]?) same
  have cells : ∀ place, changed.destinations[place]?.map Destination.bond =
      graph.destinations[place]?.map Destination.bond := fun place => by
    rw [← Array.getElem?_map, ← Array.getElem?_map]
    exact congrArg (·.2[place]?) same
  have head : changed.head = graph.head := funext fun splitter => by
    simpa [Graph.head, Option.bind_map, Function.comp_def, anchor] using
      congrArg (Option.bind · Prod.fst) (heads splitter)
  have linked : ∀ place, linkAt changed.destinations place = linkAt graph.destinations place :=
    fun place => by
      simpa [linkAt, Function.comp_def, Destination.bond] using
        congrArg (Option.map Prod.fst) (cells place)
  have owned : ∀ place, changed.destinations[place]?.bind Destination.owner =
      graph.destinations[place]?.bind Destination.owner := fun place => by
    simpa [Option.bind_map, Function.comp_def, Destination.bond] using
        congrArg (Option.bind · Prod.snd) (cells place)
  refine ⟨⟨?_, represents.woven.distinct, ?_, ?_⟩, ?_⟩
  · intro splitter
    rw [head]
    exact (represents.woven.linked splitter).congr fun place _ => linked place
  · intro splitter place
    rw [owned place]
    exact represents.woven.owned splitter place
  · intro place node held free
    obtain ⟨other, found, alike⟩ := held_of_map (congrArg Prod.snd same) held
    obtain ⟨next, owner⟩ := Prod.mk.inj alike
    rw [← next]
    exact represents.woven.loose place other found (owner.trans free)
  · intro splitter
    have counts : changed.count splitter = graph.count splitter := by
      simpa [Graph.count, Function.comp_def, anchor] using
        congrArg (fun held => (held.map Prod.snd).getD 0) (heads splitter)
    rw [counts]
    exact represents.counted splitter

/-- A splitter's rate has no part in the shape. -/
@[simp] theorem note_shape (graph : Graph) (assignment : Assignment) :
    (graph.note assignment).shape = graph.shape := by
  simp only [shape, note]
  rw [map_modify_same]
  intro splitter
  rfl

/-- A splitter's rate has no part in the links. -/
@[simp] theorem note_links (graph : Graph) (assignment : Assignment) :
    (graph.note assignment).links = graph.links := by
  simp only [links, note]
  rw [map_modify_same]
  intro splitter
  rfl

/-- A destination's settings have no part in the shape. -/
@[simp] theorem put_shape (graph : Graph) (setting : Nat × DestinationRecord) :
    (graph.put setting).shape = graph.shape := by
  simp only [shape, put]
  rw [map_modify_same]
  exact fun destination => destination.accept_id _

/-- A destination's settings have no part in the links. -/
@[simp] theorem put_links (graph : Graph) (setting : Nat × DestinationRecord) :
    (graph.put setting).links = graph.links := by
  simp only [links, put]
  rw [map_modify_same]
  exact fun destination => destination.accept_bond _

/-- A change inside an element may be made before or after a view that lets it through. -/
theorem map_modify {items : Array α} (index : Nat) {change : α → α} {look : α → β}
    {changeSeen : β → β} (same : ∀ item, look (change item) = changeSeen (look item)) :
    (items.modify index change).map look = (items.map look).modify index changeSeen := by
  apply Array.ext_getElem?
  intro other
  by_cases here : index = other <;>
    simp [Array.getElem?_modify, here, Function.comp_def, same]

/-- A rate is noted whatever the links are. -/
theorem note_bare (graph : Graph) (assignment : Assignment) :
    (graph.note assignment).bare = graph.bare.note assignment := by
  simp only [bare, note]
  rw [map_modify]
  intro splitter
  rfl

/-- Settings are put in place whatever the links are. -/
theorem put_bare (graph : Graph) (setting : Nat × DestinationRecord) :
    (graph.put setting).bare = graph.bare.put setting := by
  simp only [bare, put]
  rw [map_modify]
  exact fun destination => destination.accept_detach _

/-- Rates are noted in all splitters whatever the links are. -/
theorem notes_bare (same : changed.bare = graph.bare) (assignments : List Assignment) :
    (assignments.foldl note changed).bare = (assignments.foldl note graph).bare := by
  rw [← List.foldl_hom bare fun graph assignment => (note_bare graph assignment).symm,
    ← List.foldl_hom bare fun graph assignment => (note_bare graph assignment).symm, same]

/-- Settings are put in all destinations whatever the links are. -/
theorem puts_bare (same : changed.bare = graph.bare) (settings : List (Nat × DestinationRecord)) :
    (settings.foldl put changed).bare = (settings.foldl put graph).bare := by
  rw [← List.foldl_hom bare fun graph setting => (put_bare graph setting).symm,
    ← List.foldl_hom bare fun graph setting => (put_bare graph setting).symm, same]

/-- Settings leave the chains and what no update changes. -/
theorem puts_links (graph : Graph) (settings : List (Nat × DestinationRecord)) :
    (settings.foldl put graph).links = graph.links ∧
      (settings.foldl put graph).shape = graph.shape := by
  -- No setting moves a destination, so that they may be made in any number.
  induction settings generalizing graph with
  | nil => exact ⟨rfl, rfl⟩
  | cons setting settings ih =>
    obtain ⟨links, shape⟩ := ih (graph.put setting)
    exact ⟨links.trans (put_links graph setting), shape.trans (put_shape graph setting)⟩

/-- Rates leave the chains and what no update changes. -/
theorem notes_links (graph : Graph) (assignments : List Assignment) :
    (assignments.foldl note graph).links = graph.links ∧
      (assignments.foldl note graph).shape = graph.shape := by
  -- No note moves a splitter, so that they may be made in any number.
  induction assignments generalizing graph with
  | nil => exact ⟨rfl, rfl⟩
  | cons assignment assignments ih =>
    obtain ⟨links, shape⟩ := ih (graph.note assignment)
    exact ⟨links.trans (note_links graph assignment), shape.trans (note_shape graph assignment)⟩

/-- A splitter record assigns its identifiers to the splitter it names and takes all of them. -/
theorem applyRecord_eq (represents : Represents graph chains) (named : graph.Named)
    {record : SplitterRecord} {splitter : Nat}
    (names : index? record.id graph.splitters.size = some splitter) (following : Bytes) :
    ∃ changed, graph.applyRecord splitter record following = .ok (record.span, changed) ∧
      Represents changed (graph.assigned chains
        ⟨splitter, record, identifiers record.count.toNat following⟩) ∧
      changed.bare = (graph.note
        ⟨splitter, record, identifiers record.count.toNat following⟩).bare := by
  obtain ⟨id, inside⟩ := index?_eq_some.mp names
  obtain ⟨rebuilt, run, after, same⟩ := rebuild_eq represents inside
    (identifiers (graph.linkable record.count.toNat) following)
  have shape := shape_of_bare same
  have within : splitter < rebuilt.splitters.size := by
    rw [splitters_size_of_shape shape]
    exact inside
  have found := Array.getElem?_eq_getElem within
  generalize rebuilt.splitters[splitter] = held at found
  -- The splitter carries the identifier that the record was looked up by.
  have own : record.id = held.id := by
    have number := (named_of_shape shape named).splitters splitter held found
    exact Int32.toInt_inj.mp (id.trans number.symm)
  have fewer : graph.linkable record.count.toNat ≤ record.count.toNat := by
    simp only [linkable]
    split <;> omega
  refine ⟨rebuilt.note ⟨splitter, record, identifiers record.count.toNat following⟩, ?_, ?_, ?_⟩
  · -- The rate is noted after the chain has been rebuilt.
    have stored := setIfInBounds_eq_modify found fun splitter =>
      { splitter with rate := record.rate, isNew := true }
    simp only [applyRecord, run, ok_bind, fetch_eq_ok found, receive, own, ne_eq,
      not_true_eq_false, if_false, store_eq_ok within, stored, pure_eq_ok]
    rfl
  · refine Represents.of_links ?_ (note_links _ _)
    simp only [assigned]
    rwa [← identifiers_take fewer]
  · rw [note_bare, note_bare, same]

/-- Splitter records apply in order, as far as they can be read. -/
theorem updateSplitters_eq (represents : Represents graph chains) (named : graph.Named)
    (count : Nat) (bytes : Bytes) (offset : Nat) :
    ∃ changed, updateSplitters count bytes offset graph = .ok
        (bytes.drop (scanSplitters graph.splitters.size count bytes).2,
          offset + (scanSplitters graph.splitters.size count bytes).2, changed) ∧
      Represents changed
        ((scanSplitters graph.splitters.size count bytes).1.foldl graph.assigned chains) ∧
      changed.bare =
        ((scanSplitters graph.splitters.size count bytes).1.foldl note graph).bare := by
  -- One record leaves a graph of the same shape, which the scan of the others depends on alone.
  induction count generalizing graph chains bytes offset with
  | zero => exact ⟨graph, rfl, represents, rfl⟩
  | succ count ih =>
    -- The update stops where the scan does.
    have stop (ended : updateSplitters (count + 1) bytes offset graph = .ok (bytes, offset, graph))
        (scanned : scanSplitters graph.splitters.size (count + 1) bytes = ([], 0)) :
        ∃ changed, updateSplitters (count + 1) bytes offset graph = .ok
            (bytes.drop (scanSplitters graph.splitters.size (count + 1) bytes).2,
              offset + (scanSplitters graph.splitters.size (count + 1) bytes).2, changed) ∧
          Represents changed
            ((scanSplitters graph.splitters.size (count + 1) bytes).1.foldl graph.assigned chains) ∧
          changed.bare =
            ((scanSplitters graph.splitters.size (count + 1) bytes).1.foldl note graph).bare := by
      rw [scanned]
      exact ⟨graph, ended, represents, rfl⟩
    cases read : SplitterRecord.reader bytes with
    | none => exact stop (by simp only [updateSplitters, read]) (by simp only [scanSplitters, read])
    | some found =>
      obtain ⟨record, rest⟩ := found
      by_cases magic : record.magic = splitterMagic
      · cases names : index? record.id graph.splitters.size with
        | none =>
          exact stop (by simp [updateSplitters, read, magic, names])
            (by simp [scanSplitters, read, magic, names])
        | some splitter =>
          -- The others apply to the graph that the first record has left.
          obtain ⟨applied, run, after, same⟩ := applyRecord_eq represents named names rest
          have shape : applied.shape = graph.shape :=
            (shape_of_bare same).trans (note_shape graph _)
          have size := splitters_size_of_shape shape
          obtain ⟨changed, runAll, afterAll, sameAll⟩ := ih after (named_of_shape shape named)
            (bytes.drop record.span) (offset + record.span)
          rw [size] at runAll afterAll sameAll
          rw [assigned_of_shape shape] at afterAll
          refine ⟨changed, ?_, ?_, ?_⟩
          · simp only [updateSplitters, scanSplitters, read, magic, ne_eq, not_true_eq_false,
              if_false, names, run, ok_bind, runAll, List.drop_drop, Nat.add_assoc]
          · simpa [scanSplitters, read, magic, names] using afterAll
          · simpa [scanSplitters, read, magic, names] using sameAll.trans (notes_bare same _)
      · exact stop (by simp [updateSplitters, read, magic]) (by simp [scanSplitters, read, magic])

/-- Destination records apply in order, as far as they can be read. -/
theorem updateDestinations_eq (count : Nat) (bytes : Bytes) (offset : Nat) (graph : Graph) :
    updateDestinations count bytes offset graph = .ok
      (offset + (scanDestinations graph.destinations.size graph.filtered count bytes).2,
        (scanDestinations graph.destinations.size graph.filtered count bytes).1.foldl put graph) := by
  induction count generalizing bytes offset graph with
  | zero => rfl
  | succ count ih =>
    cases read : DestinationRecord.reader graph.filtered bytes with
    | none => simp [updateDestinations, scanDestinations, read]
    | some found =>
      obtain ⟨record, rest⟩ := found
      by_cases magic : record.magic = destinationMagic
      · cases names : index? record.id graph.destinations.size with
        | none => simp [updateDestinations, scanDestinations, read, magic, names]
        | some place =>
          -- A record whose place is known is put there, and the others find a graph of that shape.
          have found := Array.getElem?_eq_getElem (index?_eq_some.mp names).2
          have stored := setIfInBounds_eq_modify found (·.accept (graph.granted record))
          have size : (graph.put (place, record)).destinations.size = graph.destinations.size :=
            destinations_size_of_shape (put_shape graph _)
          have later := ih rest (offset + DestinationRecord.size graph.filtered)
            (graph.put (place, record))
          rw [size] at later
          simp only [updateDestinations, scanDestinations, read, magic, ne_eq, not_true_eq_false,
            if_false, names, change_eq_ok found, stored, ok_bind, List.foldl_cons]
          exact later.trans (by simp [put, Nat.add_assoc])
      · simp [updateDestinations, scanDestinations, read, magic]

/-- Lowering the flags leaves the shape. -/
@[simp] theorem clearNew_shape (graph : Graph) : graph.clearNew.shape = graph.shape := by
  simp [clearNew, shape, Function.comp_def]

/-- Neither the flags nor the rates of the splitters decide whether resets are granted. -/
theorem notes_volumeReset (graph : Graph) (assignments : List Assignment) :
    (assignments.foldl note graph.clearNew).volumeReset = graph.volumeReset :=
  congrArg Shape.volumeReset
    ((notes_links graph.clearNew assignments).2.trans (clearNew_shape graph))

/-- Lowering the flags leaves the links. -/
@[simp] theorem clearNew_links (graph : Graph) : graph.clearNew.links = graph.links := by
  simp [clearNew, links, Function.comp_def, anchor]

/-- A byte string that is no section for the graph changes nothing. -/
theorem update_eq_none {bytes : Bytes} (missing : graph.scan? bytes = none) :
    graph.update bytes = .ok (0, graph) := by
  -- A missing scan has one of three reasons, and the update stops for each of them.
  by_cases empty : graph.splitters.size = 0 ∨ graph.destinations.size = 0
  · -- A graph that is not in use ignores every section.
    have unused : graph.isUsed = false := by
      simpa [isUsed, Array.isEmpty, Bool.and_eq_false_iff, or_iff_not_imp_left] using empty
    simp [update, unused]
  · have used : graph.isUsed = true := by
      simpa [isUsed, Array.isEmpty] using empty
    simp only [scan?, Splitter.scan?, empty, if_false] at missing
    -- What is left is a header that is not there, or that has another magic.
    cases read : Header.reader bytes with
    | none => simp [update, used, read]
    | some found =>
      have magic : found.1.magic ≠ headerMagic := by
        intro magic
        simp [read, magic] at missing
      simp [update, used, read, magic]

/-- A section assigns chains and puts settings in place, both in the order of its records. -/
theorem update_eq (represents : Represents graph chains) (named : graph.Named) {bytes : Bytes}
    (fits : bytes.length < addressSpace / 2) {scan : Scan}
    (found : graph.scan? bytes = some scan) :
    ∃ changed, graph.update bytes = .ok (scan.length, changed) ∧
      Represents changed (scan.assignments.foldl graph.assigned chains) ∧
      changed.bare =
        (scan.settings.foldl put (scan.assignments.foldl note graph.clearNew)).bare := by
  have bounded := scan?_size_le found
  obtain ⟨splitters, destinations, header, rest, read, magic, rfl⟩ := exists_header_of_scan? found
  have used : graph.isUsed = true := by
    simp [isUsed, Array.isEmpty, splitters, destinations]
  have shape := clearNew_shape graph
  -- The flags are lowered first, which neither the chains nor the scan depend on.
  obtain ⟨linked, run, after, same⟩ := updateSplitters_eq
    (represents.of_links (clearNew_links graph)) (named_of_shape shape named)
    (declared header.splitters) rest Header.size
  rw [splitters_size_of_shape shape] at run after same
  rw [assigned_of_shape shape] at after
  have linkedShape : linked.shape = graph.shape :=
    (shape_of_bare same).trans ((notes_links _ _).2.trans shape)
  have settings := updateDestinations_eq (declared header.destinations)
    (rest.drop (scanSplitters graph.splitters.size (declared header.splitters) rest).2)
    (Header.size + (scanSplitters graph.splitters.size (declared header.splitters) rest).2)
    linked
  rw [destinations_size_of_shape linkedShape,
    show linked.filtered = graph.filtered from congrArg Shape.filtered linkedShape] at settings
  refine ⟨_, ?_, after.of_links (puts_links linked _).1, puts_bare same _⟩
  -- Rounding up stays within the address space, so that the update cannot fault there.
  have room : SplitterRecord.largestSpan + sectionAlignment ≤ addressSpace / 2 := by decide
  simp only [update, used, read, magic, ne_eq, not_true_eq_false, run, ok_bind, settings,
    Bool.not_true, Bool.false_eq_true, if_false]
  simp only at bounded
  rw [alignUp_eq_ok (by omega) (by decide)]
  rfl

end Graph

end Mixdown.Splitter
