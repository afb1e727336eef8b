import Mixdown.Proofs.Splitter.Runs

/-! A well-formed section sets exactly the chains that its splitter records list. -/

namespace Mixdown.Splitter

/-- A splitter record and the identifiers behind it. -/
structure Listing where
  record : SplitterRecord
  ids : List UInt32

/-- What a guest sends: a header, the splitters with their identifiers, and the destinations. -/
structure Section where
  header : Header
  listings : List Listing
  settings : List DestinationRecord

/-- The bytes of a splitter record and its identifiers. -/
def Listing.encode (listing : Listing) : Bytes :=
  listing.record.encode ++ listing.ids.flatMap Bytes.ofUInt32

/-- The bytes of a section. -/
def Section.encode (sent : Section) : Bytes :=
  sent.header.encode ++ sent.listings.flatMap Listing.encode ++
    sent.settings.flatMap DestinationRecord.encode

/-- The length of a section, rounded up to the alignment of sections. -/
def Section.length (sent : Section) : Nat :=
  (sent.encode.length + sectionAlignment - 1) / sectionAlignment * sectionAlignment

/-- A listing is well-formed when it names a splitter and declares exactly its identifiers. -/
structure Listing.WellFormed (splitters : Nat) (listing : Listing) : Prop where
  magic : listing.record.magic = splitterMagic
  named : 0 ≤ listing.record.id.toInt
  inside : listing.record.id.toInt < splitters
  declared : listing.record.count.toNat = listing.ids.length

/-- A destination record is well-formed when it names a destination and is in its layout. -/
structure DestinationRecord.WellFormed (destinations : Nat) (filtered : Bool)
    (record : DestinationRecord) : Prop where
  magic : record.magic = destinationMagic
  named : 0 ≤ record.id.toInt
  inside : record.id.toInt < destinations
  layout : record.InLayout filtered

/-- A section is well-formed when its header counts its records and all of these are well-formed. -/
structure Section.WellFormed (splitters destinations : Nat) (filtered : Bool) (sent : Section) :
    Prop where
  magic : sent.header.magic = headerMagic
  reserved : sent.header.reserved.length = 0x14
  listingCount : sent.header.splitters.toInt = sent.listings.length
  settingCount : sent.header.destinations.toInt = sent.settings.length
  listings : ∀ listing ∈ sent.listings, listing.WellFormed splitters
  settings : ∀ record ∈ sent.settings, record.WellFormed destinations filtered

/-- A section can be read whole when its header declares its records and all of these are
well-formed; a negative count declares none. -/
structure Section.Readable (splitters destinations : Nat) (filtered : Bool) (sent : Section) :
    Prop where
  magic : sent.header.magic = headerMagic
  reserved : sent.header.reserved.length = 0x14
  listingCount : Graph.declared sent.header.splitters = sent.listings.length
  settingCount : Graph.declared sent.header.destinations = sent.settings.length
  listings : ∀ listing ∈ sent.listings, listing.WellFormed splitters
  settings : ∀ record ∈ sent.settings, record.WellFormed destinations filtered

/-- The splitter that a listing names. -/
def Listing.splitter (listing : Listing) : Nat := listing.record.id.toInt.toNat

/-- The identifiers that a graph takes from a listing: without free linking each splitter has an
equal share, and from the first identifier that names no destination on none are taken. -/
def Listing.places (graph : Graph) (listing : Listing) : List Nat :=
  let share :=
    if graph.freeLinking then listing.ids
    else listing.ids.take
      (min listing.ids.length (graph.destinations.size / graph.splitters.size))
  ((share.map UInt32.toNat).takeWhile (· < graph.destinations.size)).eraseDups

/-- The chains after a section: each listing in turn becomes its splitter's chain and takes its
places from all others. -/
def Section.chains (graph : Graph) (sent : Section) (before : Chains) : Chains :=
  sent.listings.foldl (fun chains listing =>
    chains.assign listing.splitter (listing.places graph)) before

namespace Graph

/-- An identifier in range names its own index. -/
theorem index?_toNat {id : Int32} {count : Nat} (named : 0 ≤ id.toInt) (inside : id.toInt < count) :
    index? id count = some id.toInt.toNat :=
  index?_eq_some.mpr ⟨by omega, by omega⟩

end Graph

/-- What a listing asks for. -/
def Listing.assignment (listing : Listing) : Assignment :=
  ⟨listing.splitter, listing.record, listing.ids.map UInt32.toNat⟩

/-- What a destination record asks for. -/
def DestinationRecord.setting (record : DestinationRecord) : Nat × DestinationRecord :=
  (record.id.toInt.toNat, record)

/-- A well-formed listing takes the bytes that it declares. -/
theorem Listing.WellFormed.length_eq {splitters : Nat} {listing : Listing}
    (formed : listing.WellFormed splitters) : listing.encode.length = listing.record.span := by
  -- Each identifier takes its fixed size behind the fixed part of the record.
  have head : listing.record.encode.length = SplitterRecord.size :=
    SplitterRecord.takes_reader.length_eq (SplitterRecord.reader_encode listing.record)
  have ids : ∀ ids : List UInt32, (ids.flatMap Bytes.ofUInt32).length = ids.length * identifierSize :=
    fun ids => by
      induction ids with
      | nil => rfl
      | cons id ids ih =>
        simp only [List.flatMap_cons, List.length_append, ih, List.length_cons, Bytes.ofUInt32,
          List.length_nil, identifierSize]
        omega
  simp only [Listing.encode, List.length_append, head, ids, SplitterRecord.span, formed.declared]

/-- A well-formed destination record takes the bytes of its layout. -/
theorem DestinationRecord.WellFormed.length_eq {destinations : Nat} {filtered : Bool}
    {record : DestinationRecord} (formed : record.WellFormed destinations filtered) :
    record.encode.length = DestinationRecord.size filtered :=
  (DestinationRecord.takes_reader filtered).length_eq
    (DestinationRecord.reader_encode formed.layout)

/-- A well-formed section can be read whole. -/
theorem Section.WellFormed.readable {splitters destinations : Nat} {filtered : Bool}
    {sent : Section} (formed : sent.WellFormed splitters destinations filtered) :
    sent.Readable splitters destinations filtered where
  magic := formed.magic
  reserved := formed.reserved
  listingCount := by simp [Graph.declared, formed.listingCount]
  settingCount := by simp [Graph.declared, formed.settingCount]
  listings := formed.listings
  settings := formed.settings

/-- A section that can be read whole is as long as its header and all its records. -/
theorem Section.Readable.length_eq {splitters destinations : Nat} {filtered : Bool}
    {sent : Section} (readable : sent.Readable splitters destinations filtered) :
    sent.encode.length = Header.size + (sent.listings.map fun listing => listing.record.span).sum +
      sent.settings.length * DestinationRecord.size filtered := by
  -- A header and settings are of fixed lengths, while a listing is as long as its record says.
  have head : sent.header.encode.length = Header.size :=
    Header.takes_reader.length_eq (Header.reader_encode readable.reserved)
  have listings := List.map_congr_left fun listing here => (readable.listings listing here).length_eq
  have settings := List.map_congr_left fun record here => (readable.settings record here).length_eq
  simp only [Section.encode, List.length_append, head, List.length_flatMap, listings, settings,
    List.map_const', List.sum_replicate_nat]

/-- Well-formed listings are scanned in order. -/
theorem scanSplitters_encode {splitters : Nat} {listings : List Listing}
    (formed : ∀ listing ∈ listings, listing.WellFormed splitters) (rest : Bytes) :
    scanSplitters splitters listings.length (listings.flatMap Listing.encode ++ rest) =
      (listings.map Listing.assignment, (listings.flatMap Listing.encode).length) := by
  induction listings with
  | nil => rfl
  | cons listing listings ih =>
    have here := formed listing (by simp)
    have later := ih fun other there => formed other (by simp [there])
    -- The record is read, its identifiers behind it, and the others after the bytes it declares.
    have read : SplitterRecord.reader
        (listing.encode ++ (listings.flatMap Listing.encode ++ rest)) = some (listing.record,
          listing.ids.flatMap Bytes.ofUInt32 ++ (listings.flatMap Listing.encode ++ rest)) := by
      simp only [Listing.encode, List.append_assoc, SplitterRecord.reader_encode]
    have past : (listing.encode ++ (listings.flatMap Listing.encode ++ rest)).drop
        listing.record.span = listings.flatMap Listing.encode ++ rest :=
      List.drop_left' here.length_eq
    have ids : identifiers listing.record.count.toNat
        (listing.ids.flatMap Bytes.ofUInt32 ++ (listings.flatMap Listing.encode ++ rest)) =
          listing.ids.map UInt32.toNat := by
      rw [here.declared]
      exact identifiers_append listing.ids _
    simp only [List.length_cons, List.flatMap_cons, List.append_assoc, scanSplitters, read,
      here.magic, ne_eq, not_true_eq_false, if_false, Graph.index?_toNat here.named here.inside,
      past, later, ids, List.map_cons, List.length_append, here.length_eq]
    rfl

/-- Well-formed destination records are scanned in order. -/
theorem scanDestinations_encode {destinations : Nat} {filtered : Bool}
    {records : List DestinationRecord}
    (formed : ∀ record ∈ records, record.WellFormed destinations filtered) (rest : Bytes) :
    scanDestinations destinations filtered records.length
        (records.flatMap DestinationRecord.encode ++ rest) =
      (records.map DestinationRecord.setting,
        (records.flatMap DestinationRecord.encode).length) := by
  -- Each record is read from the front of what is left, and names a place that there is.
  induction records with
  | nil => rfl
  | cons record records ih =>
    have here := formed record (by simp)
    have later := ih fun other there => formed other (by simp [there])
    simp only [List.length_cons, scanDestinations, List.flatMap_cons, List.append_assoc,
      DestinationRecord.reader_encode here.layout, here.magic, ne_eq, not_true_eq_false, if_false,
      Graph.index?_toNat here.named here.inside, later, List.map_cons, List.length_append,
      here.length_eq]
    rfl

/-- A section that can be read whole is scanned for the records that it was made of. -/
theorem Section.Readable.scan {splitters destinations : Nat} {filtered : Bool} {sent : Section}
    (readable : sent.Readable splitters destinations filtered) (used : splitters ≠ 0)
    (usedToo : destinations ≠ 0) (trailing : Bytes) :
    scan? splitters destinations filtered (sent.encode ++ trailing) =
      some ⟨sent.listings.map Listing.assignment, sent.settings.map DestinationRecord.setting,
        sent.encode.length⟩ := by
  have head : sent.header.encode.length = Header.size :=
    Header.takes_reader.length_eq (Header.reader_encode readable.reserved)
  -- The header declares exactly the records that follow, so both scans run to their ends.
  simp only [scan?, used, usedToo, or_self, if_false, Section.encode, List.append_assoc,
    Header.reader_encode readable.reserved, readable.magic, ne_eq, not_true_eq_false,
    readable.listingCount, readable.settingCount, scanSplitters_encode readable.listings,
    List.drop_left, scanDestinations_encode readable.settings, List.length_append, head,
    Nat.add_assoc]

/-- A record leaves the filters' states alone. -/
theorem Destination.accept_states (destination : Destination) (record : DestinationRecord) :
    (destination.accept record).states = destination.states := by
  simp only [accept, takeFilters, receive]
  split <;> rfl

namespace Graph

/-- Rates are noted in the splitters only. -/
theorem notes_destinations (graph : Graph) (assignments : List Assignment) :
    (assignments.foldl note graph).destinations = graph.destinations := by
  induction assignments generalizing graph with
  | nil => rfl
  | cons assignment assignments ih => exact ih (graph.note assignment)

/-- Settings leave what no record changes of a destination. -/
theorem puts_look {look : Destination → β}
    (kept : ∀ destination record, look (Destination.accept destination record) = look destination)
    (graph : Graph) (settings : List (Nat × DestinationRecord)) :
    (settings.foldl put graph).destinations.map look = graph.destinations.map look := by
  -- What a view does not see in one destination it does not see in any of them.
  induction settings generalizing graph with
  | nil => rfl
  | cons setting settings ih =>
    rw [List.foldl_cons, ih, put, map_modify_same]
    exact fun destination => kept destination _

/-- Links have no part in what is the same on and off a chain. -/
theorem look_of_bare {look : Destination → β}
    (loose : ∀ destination, look (Destination.detach destination) = look destination)
    {changed graph : Graph} (same : changed.bare = graph.bare) :
    changed.destinations.map look = graph.destinations.map look := by
  have forgotten : ∀ graph : Graph, graph.bare.destinations.map look =
      graph.destinations.map look := fun graph => by
    simp [bare, Function.comp_def, loose]
  rw [← forgotten changed, same, forgotten graph]

/-- Whatever bytes a sound graph is sent, its destinations keep what neither a record nor a chain
changes. -/
theorem Sound.update_look {look : Destination → β}
    (kept : ∀ destination record, look (Destination.accept destination record) = look destination)
    (loose : ∀ destination, look (Destination.detach destination) = look destination)
    {graph changed : Graph} (sound : graph.Sound) {bytes : Bytes}
    (fits : bytes.length < addressSpace / 2) {taken : Nat}
    (ran : graph.update bytes = .ok (taken, changed)) :
    changed.destinations.map look = graph.destinations.map look := by
  obtain ⟨chains, represents⟩ := sound.represented
  cases found : graph.scan? bytes with
  | none =>
    -- Bytes that are no section leave the whole graph as it is.
    obtain ⟨-, rfl⟩ := Prod.mk.inj (Except.ok.inj ((update_eq_none found).symm.trans ran))
    rfl
  | some scan =>
    obtain ⟨again, run, -, bare⟩ := update_eq represents sound.named fits found
    obtain ⟨-, rfl⟩ := Prod.mk.inj (Except.ok.inj (run.symm.trans ran))
    rw [look_of_bare loose bare, puts_look kept, notes_destinations]
    rfl

/-- A sound graph takes a well-formed section whole and gets the chains that its listings describe,
while the filters keep their states. -/
theorem Sound.update_section {graph : Graph} (sound : graph.Sound) (used : graph.isUsed)
    {sent : Section}
    (formed : sent.WellFormed graph.splitters.size graph.destinations.size graph.filtered)
    {trailing : Bytes} (room : (sent.encode ++ trailing).length < addressSpace / 2) :
    ∃ changed, graph.update (sent.encode ++ trailing) = .ok (sent.length, changed) ∧
      changed.chain = sent.chains graph graph.chain ∧ changed.Sound ∧
      changed.destinations.map Destination.states = graph.destinations.map Destination.states := by
  obtain ⟨chains, represents⟩ := sound.represented
  -- The scan of a well-formed section is known, and an update applies just what was scanned.
  have sizes : graph.splitters.size ≠ 0 ∧ graph.destinations.size ≠ 0 := by
    simpa [isUsed, Array.isEmpty] using used
  have found : graph.scan? (sent.encode ++ trailing) = some _ :=
    formed.readable.scan sizes.1 sizes.2 trailing
  obtain ⟨changed, update, after, bare⟩ := update_eq represents sound.named room found
  have shape : changed.shape = graph.shape :=
    (shape_of_bare bare).trans ((puts_links _ _).2.trans
      ((notes_links _ _).2.trans (clearNew_shape graph)))
  refine ⟨changed, update, ?_, ⟨named_of_shape shape sound.named, _, after⟩, ?_⟩
  · have before : graph.chain = chains := funext represents.chain_eq
    have assigned : ∀ listing ∈ sent.listings, ∀ chains : Chains,
        graph.assigned chains listing.assignment =
          chains.assign listing.splitter (listing.places graph) := by
      intro listing here chains
      -- The record declares as many identifiers as follow it, so a share is a share of those.
      simp only [Graph.assigned, Listing.assignment, listed, Listing.places, linkable,
        (formed.listings listing here).declared]
      split
      · rw [List.take_of_length_le (by simp)]
      · rw [List.map_take]
    funext splitter
    rw [after.chain_eq, before, Section.chains, List.foldl_map]
    exact congrFun (List.foldl_ext _ _ _ fun chains listing here =>
      assigned listing here chains) splitter
  · exact sound.update_look Destination.accept_states (fun _ => rfl) room update

/-- A well-formed section is taken whole and sets the chains that its listings describe. -/
theorem runs_update_section {operations : List Operation}
    (fits : ∀ operation ∈ operations, operation.Fits) {graph : Graph}
    (reached : runs operations = .ok graph) (used : graph.isUsed) {sent : Section}
    (formed : sent.WellFormed graph.splitters.size graph.destinations.size graph.filtered)
    (trailing : Bytes) (room : (sent.encode ++ trailing).length < addressSpace / 2) :
    ∃ changed, graph.update (sent.encode ++ trailing) = .ok (sent.length, changed) ∧
      changed.chain = sent.chains graph graph.chain ∧ changed.Linked := by
  obtain ⟨same, run, sound⟩ := sound_empty.applyAll fits
  obtain rfl : same = graph := Except.ok.inj (run.symm.trans reached)
  obtain ⟨changed, update, chains, after, -⟩ := sound.update_section used formed room
  exact ⟨changed, update, chains, after.linked⟩

/-- A destination that a later listing names leaves the splitter that an earlier one gave it to. -/
theorem runs_update_section_shared :
    let graph := empty.allocate .newest 2 3
    let sent : Section :=
      { header := ⟨headerMagic, 2, 1, .zeros 0x14⟩
        listings := [⟨⟨splitterMagic, 0, 48000, 3⟩, [0, 1, 0]⟩, ⟨⟨splitterMagic, 1, 48000, 2⟩, [2, 0]⟩]
        settings := [⟨destinationMagic, 1, .replicate _ 0, 0, some (.replicate _ .zero), 1, 0,
          .zeros 10⟩] }
    runs [.allocate .newest 2 3] = .ok graph ∧ graph.isUsed ∧
      sent.WellFormed graph.splitters.size graph.destinations.size graph.filtered ∧
      ∃ changed, graph.update (sent.encode ++ [7]) = .ok (sent.length, changed) ∧
        changed.chain 0 = [1] ∧ changed.chain 1 = [2, 0] := by
  intro graph sent
  have fits : ∀ operation ∈ [Operation.allocate .newest 2 3], operation.Fits := by
    simp [Operation.Fits]
  -- Every listing names places that there are, and the layout has room for filters.
  have formed : sent.WellFormed graph.splitters.size graph.destinations.size graph.filtered := by
    refine ⟨rfl, rfl, rfl, rfl, ?_, ?_⟩
    · simp only [sent, List.forall_mem_cons]
      exact ⟨⟨rfl, by decide, by decide +kernel, rfl⟩, ⟨rfl, by decide, by decide +kernel, rfl⟩,
        by simp⟩
    · simp only [sent, List.forall_mem_cons]
      exact ⟨⟨rfl, by decide, by decide +kernel, rfl, rfl⟩, by simp⟩
  have reached : runs [.allocate .newest 2 3] = .ok graph := rfl
  have used : graph.isUsed := by decide +kernel
  obtain ⟨changed, run, chains, -⟩ :=
    runs_update_section fits reached used formed [7] (by decide +kernel)
  refine ⟨reached, used, formed, changed, run, ?_, ?_⟩
  · rw [chains]
    decide +kernel
  · rw [chains]
    decide +kernel

end Graph

end Mixdown.Splitter
