import Mixdown.Proofs.Splitter.Filters
import Mixdown.Proofs.Splitter.Resend

/-!
Previous volumes change when a destination is latched, put to use or granted a reset, and at no
other time.
-/

namespace Mixdown.Splitter

/-- The records at which a destination's volumes jump: a record jumps when it finds the destination
out of use and puts it to use, or when it asks for a reset that is granted. -/
def jumps (granted : Bool) : (inUse : Bool) → List DestinationRecord → List DestinationRecord
  | _, [] => []
  | inUse, record :: later =>
    let used : Bool := record.inUse ≠ 0
    if (!inUse && used) || (granted && record.resetPrevious ≠ 0) then
      record :: jumps granted used later
    else jumps granted used later

/-- The records of a destination that keep it in use and ask for no reset that is granted make
nothing jump. -/
theorem jumps_eq_nil {granted : Bool} {records : List DestinationRecord}
    (steady : ∀ record ∈ records,
      record.inUse ≠ 0 ∧ (granted = true → record.resetPrevious = 0)) :
    jumps granted true records = [] := by
  induction records with
  | nil => rfl
  | cons record later ih =>
    obtain ⟨⟨used, unasked⟩, steady⟩ := List.forall_mem_cons.mp steady
    -- The destination is found in use by each record, since the one before has left it so.
    have quiet : ¬(granted = true ∧ record.resetPrevious ≠ 0) :=
      fun ⟨grants, asks⟩ => asks (unasked grants)
    simpa [jumps, used, quiet] using ih steady

namespace Destination

/-- The part of a destination that decides and keeps its previous volumes. -/
def latched (destination : Destination) : Bool × Vector Single maxVolumes × Bool :=
  (destination.inUse, destination.previous, destination.pending)

/-- A record that names a destination decides its use, and its previous volumes if they jump. -/
theorem accept_latched (graph : Graph) {destination : Destination} {record : DestinationRecord}
    (magic : record.magic = destinationMagic) (own : record.id = destination.id) :
    (destination.accept (graph.granted record)).latched = ((record.inUse ≠ 0 : Bool),
      if (!destination.inUse && (record.inUse ≠ 0 : Bool)) ||
          (graph.volumeReset && (record.resetPrevious ≠ 0 : Bool)) then (record.volumes, false)
      else (destination.previous, destination.pending)) := by
  -- A reset that is not granted has been taken out of the record before the destination sees it.
  cases granted : graph.volumeReset <;>
    simp only [accept, receive, takeFilters, Graph.granted, granted, magic, own, latched, ne_eq,
      not_true_eq_false, or_self, if_false, if_true, Bool.false_eq_true, decide_false,
      Bool.or_false, Bool.false_and, Bool.true_and] <;>
    split <;> rfl

/-- Records that name a destination leave it in use as the last one says, and its previous volumes
are those of the last one at which they jump. -/
theorem acceptAll_latched (graph : Graph) (destination : Destination)
    {records : List DestinationRecord}
    (named : ∀ record ∈ records, record.magic = destinationMagic ∧ record.id = destination.id) :
    (destination.acceptAll (records.map graph.granted)).latched =
      ((records.getLast?.map fun record => (record.inUse ≠ 0 : Bool)).getD destination.inUse,
        match (jumps graph.volumeReset destination.inUse records).getLast? with
        | some record => (record.volumes, false)
        | none => (destination.previous, destination.pending)) := by
  induction records generalizing destination with
  | nil => rfl
  | cons record later ih =>
    obtain ⟨⟨magic, own⟩, named⟩ := List.forall_mem_cons.mp named
    -- The later records find the destination as this one has left it, under the same identifier.
    have first := accept_latched graph magic own
    have rest := ih (destination.accept (graph.granted record)) (by simpa using named)
    simp only [latched, Prod.mk.injEq] at first
    obtain ⟨used, held⟩ := first
    rw [List.map_cons, acceptAll, List.foldl_cons]
    rw [acceptAll] at rest
    rw [rest, used, held, List.getLast?_cons, jumps]
    refine Prod.ext ?_ ?_
    · cases later.getLast? <;> rfl
    · -- What jumps later decides, and without it the first record does.
      generalize jumps graph.volumeReset _ later = behind
      generalize (!destination.inUse && _ || _) = jumped
      cases found : behind.getLast? <;> cases jumped <;>
        simp only [Bool.false_eq_true, if_true, if_false, List.getLast?_cons, found,
          Option.getD_some, Option.getD_none]

end Destination

/-- Every destination record of a scan names the place that it was found for. -/
theorem scanDestinations_names {destinations : Nat} {filtered : Bool} {count : Nat} {bytes : Bytes}
    {setting : Nat × DestinationRecord}
    (found : setting ∈ (scanDestinations destinations filtered count bytes).1) :
    setting.2.magic = destinationMagic ∧
      Graph.index? setting.2.id destinations = some setting.1 := by
  -- A record is only taken up once its magic and its identifier have been looked at.
  induction count generalizing bytes with
  | zero => simp [scanDestinations] at found
  | succ count ih =>
    simp only [scanDestinations] at found
    split at found
    · simp at found
    · next record rest read =>
      split at found
      · simp at found
      · next magic =>
        split at found
        · simp at found
        · next place names =>
          rcases List.mem_cons.mp found with rfl | later
          · exact ⟨not_not.mp magic, names⟩
          · exact ih later

namespace Graph

variable {graph changed : Graph} {bytes : Bytes} {place : Nat}

/-- The destination records of a byte string that name a place, if it is a section for the graph. -/
def naming (graph : Graph) (bytes : Bytes) (place : Nat) : List DestinationRecord :=
  ((graph.scan? bytes).map fun scan => recordsFor scan.settings place).getD []

/-- A record that names a place has the magic and the identifier of the destination there. -/
theorem Named.of_naming (named : graph.Named) {destination : Destination}
    (held : graph.destinations[place]? = some destination) :
    ∀ record ∈ graph.naming bytes place,
      record.magic = destinationMagic ∧ record.id = destination.id := by
  intro record here
  cases found : graph.scan? bytes with
  | none => simp [naming, found] at here
  | some scan =>
    simp only [naming, found, Option.map_some, Option.getD_some, recordsFor,
      List.mem_filterMap] at here
    obtain ⟨setting, listed, same⟩ := here
    obtain ⟨rfl, rfl⟩ : setting.1 = place ∧ setting.2 = record := by simpa using same
    obtain ⟨-, -, header, rest, -, -, rfl⟩ := exists_header_of_scan? found
    obtain ⟨magic, names⟩ := scanDestinations_names listed
    -- The destination at a place carries the place as its identifier, and so does the record.
    have own := named.destinations setting.1 destination held
    exact ⟨magic, Int32.toInt_inj.mp ((index?_eq_some.mp names).1.trans own.symm)⟩

/-- After an update the previous volumes of a destination are those of the last record at which they
jump, and they are kept when there is none. -/
theorem Sound.update_latched (sound : graph.Sound) (room : bytes.length < addressSpace / 2)
    {taken : Nat} (ran : graph.update bytes = .ok (taken, changed)) (place : Nat) :
    changed.destinations[place]?.map Destination.latched =
      graph.destinations[place]?.map fun destination =>
        (((graph.naming bytes place).getLast?.map fun record =>
            (record.inUse ≠ 0 : Bool)).getD destination.inUse,
          match (jumps graph.volumeReset destination.inUse (graph.naming bytes place)).getLast? with
          | some record => (record.volumes, false)
          | none => (destination.previous, destination.pending)) := by
  cases found : graph.scan? bytes with
  | none =>
    -- Bytes that are no section leave the whole graph as it is.
    obtain ⟨-, rfl⟩ := Prod.mk.inj (Except.ok.inj ((update_eq_none found).symm.trans ran))
    simp only [naming, found, Option.map_none, Option.getD_none, List.getLast?_nil, jumps]
    rfl
  | some scan =>
    have settings := sound.update_settings room found ran place
    cases held : graph.destinations[place]? with
    | none =>
      rw [held, Option.map_none, Option.map_eq_none_iff] at settings
      rw [settings, Option.map_none, Option.map_none]
    | some destination =>
      rw [held, Option.map_some] at settings
      obtain ⟨after, found', same⟩ := Option.map_eq_some_iff.mp settings
      -- The links of a destination have no part in what is latched of it.
      rw [← destination.acceptAll_detach] at same
      have seen : after.detach.latched = (destination.acceptAll
          ((recordsFor scan.settings place).map graph.granted)).detach.latched :=
        congrArg Destination.latched same
      have names : ∀ record ∈ graph.naming bytes place,
          record.magic = destinationMagic ∧ record.id = destination.id :=
        sound.named.of_naming held
      simp only [naming, found, Option.map_some, Option.getD_some] at names ⊢
      rw [found', Option.map_some, show after.latched = _ from seen]
      exact congrArg some (Destination.acceptAll_latched graph destination names)

end Graph

/-- An edit spares a destination when it neither latches nor replaces its volumes. -/
def Edit.Spares : Edit → Prop
  | mark | setVolume .. | setFilter .. | command .. => True
  | latch | clearVolumes | receive _ => False

/-- An operation spares a destination when it does not latch, reset or replace its volumes and does
not take it out of use, as long as all records that name it do neither. -/
def Operation.Spares (graph : Graph) (place : Nat) : Operation → Prop
  | allocate .. | latch => False
  | clearNew => True
  | update bytes => ∀ record ∈ graph.naming bytes place,
      record.inUse ≠ 0 ∧ (graph.volumeReset = true → record.resetPrevious = 0)
  | edit other change => other = place → change.Spares

/-- Whether resets are granted after an operation: an allocation that takes effect decides it anew. -/
def Operation.grantsReset (granted : Bool) : Operation → Bool
  | allocate revision splitters destinations =>
    if !revision.hasSplitter || splitters.toNat = 0 || destinations.toNat = 0 then granted
    else 13 ≤ revision.number
  | _ => granted

/-- What spares a destination does not allocate it anew. -/
theorem Operation.Spares.stays {graph : Graph} {place : Nat} {operation : Operation}
    (spares : operation.Spares graph place) : operation.allocates = false := by
  -- What spares a destination does not allocate anew.
  cases operation with
  | allocate revision splitters destinations => exact spares.elim
  | latch => exact spares.elim
  | update bytes => rfl
  | clearNew => rfl
  | edit other change => rfl

/-- A destination that an edit spares stays in use as it was and keeps its previous volumes. -/
theorem Edit.Spares.apply {edit : Edit} (spares : edit.Spares) (destination : Destination) :
    ∃ edited, edit.apply destination = .ok edited ∧ edited.inUse = destination.inUse ∧
      edited.previous = destination.previous := by
  -- The edits that are left set neither the volumes of before nor whether a destination is in use.
  cases edit with
  | mark => exact ⟨_, rfl, rfl, rfl⟩
  | latch => exact spares.elim
  | clearVolumes => exact spares.elim
  | receive record => exact spares.elim
  | setVolume buffer volume =>
    exact ⟨{ destination with volumes := destination.volumes.set buffer volume },
      by simp only [Edit.apply, Destination.setVolume, buffer.isLt, dif_pos], rfl, rfl⟩
  | setFilter index filter =>
    exact ⟨{ destination with filters := destination.filters.set index filter },
      by simp only [Edit.apply, Destination.setFilter, index.isLt, dif_pos], rfl, rfl⟩
  | command revision buffer table =>
    refine ⟨_, rfl, ?_⟩
    simp only [Destination.commands]
    split
    · -- Making commands touches the places and starts of filters only.
      have started := Destination.commandsFor_started buffer (List.nodup_finRange maxFilters)
        destination table
      rw [started.whole]
      exact ⟨rfl, rfl⟩
    · exact ⟨rfl, rfl⟩

namespace Graph

variable {graph changed : Graph} {place : Nat}

/-- A graph of the same shape finds the same records for a place. -/
theorem naming_of_shape (same : changed.shape = graph.shape) (bytes : Bytes) (place : Nat) :
    changed.naming bytes place = graph.naming bytes place := by
  simp only [naming, scan?_of_shape same]

/-- What spares a destination spares it in every graph of the same shape. -/
theorem spares_of_shape (same : changed.shape = graph.shape) {operation : Operation}
    (spares : operation.Spares graph place) : operation.Spares changed place := by
  -- Whether a section spares a destination depends on the places it names, which the shape decides.
  have granted : changed.volumeReset = graph.volumeReset := congrArg Shape.volumeReset same
  cases operation with
  | update bytes =>
    simpa only [Operation.Spares, naming_of_shape same, granted] using spares
  | allocate revision splitters destinations => exact spares
  | latch => exact spares
  | clearNew => exact spares
  | edit other change => exact spares

/-- A destination in use that an operation spares stays in use and keeps its previous volumes. -/
theorem Sound.apply_spared (sound : graph.Sound) {operation : Operation} (fits : operation.Fits)
    (spares : operation.Spares graph place) {destination : Destination}
    (held : graph.destinations[place]? = some destination) (used : destination.inUse = true) :
    ∃ changed after, operation.apply graph = .ok changed ∧ changed.Sound ∧
      changed.shape = graph.shape ∧ changed.destinations[place]? = some after ∧
      after.inUse = true ∧ after.previous = destination.previous := by
  obtain ⟨changed, ran, still, stays⟩ := sound.apply fits
  have shape := stays spares.stays
  cases operation with
  | allocate revision splitters destinations => exact spares.elim
  | latch => exact spares.elim
  | clearNew =>
    obtain rfl := Except.ok.inj ran
    exact ⟨_, destination, ran, still, shape, held, used, rfl⟩
  | update bytes =>
    obtain ⟨⟨taken, next⟩, updated, same⟩ := bind_eq_ok.mp ran
    obtain rfl : next = changed := Except.ok.inj same
    have seen := sound.update_latched fits updated place
    rw [held, Option.map_some, used, jumps_eq_nil spares] at seen
    obtain ⟨after, found, latched⟩ := Option.map_eq_some_iff.mp seen
    obtain ⟨uses, keeps⟩ := Prod.mk.inj latched
    refine ⟨_, after, ran, still, shape, found, uses.trans ?_, (Prod.mk.inj keeps).1⟩
    -- The last record that names the place is one of those that leave it in use.
    cases last : (graph.naming bytes place).getLast? with
    | none => rfl
    | some record => simpa using (spares record (List.mem_of_getLast? last)).1
  | edit other change =>
    by_cases here : other = place
    · subst here
      obtain ⟨edited, made, uses, keeps⟩ := (spares rfl).apply destination
      simp only [Operation.apply, held, made, ok_bind, pure_eq_ok, Except.ok.injEq] at ran
      have inside := (Array.getElem?_eq_some_iff.mp held).1
      refine ⟨changed, edited, ?_, still, shape, ?_, uses.trans used, keeps⟩
      · simp only [Operation.apply, held, made, ok_bind, pure_eq_ok, ran]
      · rw [← ran]
        exact Array.getElem?_setIfInBounds_self_of_lt inside
    · refine ⟨changed, destination, ran, still, shape, ?_, used, rfl⟩
      -- An edit stores one destination, which is another one here.
      simp only [Operation.apply] at ran
      split at ran
      · rw [← Except.ok.inj ran]
        exact held
      · obtain ⟨edited, -, same⟩ := bind_eq_ok.mp ran
        rw [← Except.ok.inj same]
        exact (Array.getElem?_setIfInBounds_ne here).trans held

/-- A destination in use that operations spare stays in use and keeps its previous volumes. -/
theorem Sound.applyAll_spared (sound : graph.Sound) {operations : List Operation}
    (fits : ∀ operation ∈ operations, operation.Fits)
    (spares : ∀ operation ∈ operations, operation.Spares graph place) {destination : Destination}
    (held : graph.destinations[place]? = some destination) (used : destination.inUse = true) :
    ∃ changed after, operations.foldlM Operation.apply graph = .ok changed ∧
      changed.destinations[place]? = some after ∧ after.inUse = true ∧
      after.previous = destination.previous := by
  induction operations generalizing graph destination with
  | nil => exact ⟨graph, destination, rfl, held, used, rfl⟩
  | cons operation operations ih =>
    obtain ⟨fit, fits⟩ := List.forall_mem_cons.mp fits
    obtain ⟨spare, spares⟩ := List.forall_mem_cons.mp spares
    obtain ⟨first, after, ran, still, shape, found, uses, keeps⟩ :=
      sound.apply_spared fit spare held used
    -- Which records name the place is decided by the shape, which the first operation has kept.
    obtain ⟨changed, last, run, there, inUse, same⟩ := ih still fits
      (fun other here => spares_of_shape shape (spares other here)) found uses
    exact ⟨changed, last, by rw [List.foldlM_cons, ran, ok_bind, run], there, inUse,
      same.trans keeps⟩

/-- A sound graph latches exactly the destinations that are on a chain. -/
theorem Sound.latch_chains (sound : graph.Sound) :
    ∃ latched, graph.latch = .ok { graph with destinations := latched } ∧
      latched.size = graph.destinations.size ∧
      ∀ (place : Nat) (destination : Destination), graph.destinations[place]? = some destination →
        ((∃ splitter, place ∈ graph.chain splitter) → latched[place]? = some destination.latch) ∧
        ((∀ splitter, place ∉ graph.chain splitter) → latched[place]? = some destination) := by
  obtain ⟨chains, represents⟩ := sound.represented
  refine ⟨_, latch_eq represents, by rw [Array.size_map], fun place destination held => ?_⟩
  have owned := fun splitter => sound.linked.owned splitter place
  simp only [held, Option.bind_some] at owned
  rw [Array.getElem?_map, held, Option.map_some]
  -- A destination has an owner exactly when it is on the chain of one.
  constructor
  · rintro ⟨splitter, on⟩
    rw [(owned splitter).mp on, Option.isSome_some, if_pos rfl]
  · intro off
    have loose : destination.owner = none :=
      Option.eq_none_iff_forall_ne_some.mpr fun splitter => mt (owned splitter).mpr (off splitter)
    rw [loose, Option.isSome_none, if_neg (by simp)]

/-- An operation leaves what an allocation has decided, unless it allocates anew. -/
theorem Sound.apply_volumeReset (sound : graph.Sound) {operation : Operation}
    (fits : operation.Fits) (ran : operation.apply graph = .ok changed) :
    changed.Sound ∧ changed.volumeReset = operation.grantsReset graph.volumeReset := by
  -- Only an allocation decides anew what a revision grants.
  obtain ⟨next, run, still, stays⟩ := sound.apply fits
  obtain rfl : next = changed := Except.ok.inj (run.symm.trans ran)
  refine ⟨still, ?_⟩
  cases operation with
  | allocate revision splitters destinations =>
    rw [← Except.ok.inj run]
    simp only [Graph.allocate, Operation.grantsReset]
    split
    · rfl
    · rfl
  | update bytes => exact congrArg Shape.volumeReset (stays rfl)
  | latch => exact congrArg Shape.volumeReset (stays rfl)
  | clearNew => exact congrArg Shape.volumeReset (stays rfl)
  | edit place change => exact congrArg Shape.volumeReset (stays rfl)

/-- A sound graph grants resets after operations as the last allocation among them has decided. -/
theorem Sound.applyAll_volumeReset (sound : graph.Sound) {operations : List Operation}
    (fits : ∀ operation ∈ operations, operation.Fits)
    (ran : operations.foldlM Operation.apply graph = .ok changed) :
    changed.volumeReset =
      operations.foldl (fun granted operation => operation.grantsReset granted)
        graph.volumeReset := by
  -- The last allocation decides, and the operations behind it leave what it has granted.
  induction operations generalizing graph with
  | nil => rw [← Except.ok.inj ran]; rfl
  | cons operation operations ih =>
    obtain ⟨fit, fits⟩ := List.forall_mem_cons.mp fits
    obtain ⟨first, run, rest⟩ := bind_eq_ok.mp (List.foldlM_cons.symm.trans ran)
    obtain ⟨still, decides⟩ := sound.apply_volumeReset fit run
    rw [List.foldl_cons, ← decides]
    exact ih still fits rest

/--
Latching any reachable graph gives the destinations on chains that are in use and pending their
volumes as the previous ones, ends their waiting, and changes nothing else. Any byte string that it
is sent sets the previous volumes of a destination to those of the last record at which they jump,
and leaves them and the waiting alone when there is none; resets are granted as the last allocation
has decided. So whatever happens to a destination in use between two latches, its previous volumes
stay as long as nothing takes it out of use or resets it.
-/
theorem runs_previous_volumes {operations : List Operation}
    (fits : ∀ operation ∈ operations, operation.Fits) (reached : runs operations = .ok graph) :
    (∃ latched, graph.latch = .ok { graph with destinations := latched } ∧
      latched.size = graph.destinations.size ∧
      ∀ (place : Nat) (destination : Destination), graph.destinations[place]? = some destination →
        ((∃ splitter, place ∈ graph.chain splitter) → latched[place]? = some { destination with
          previous := if destination.inUse && destination.pending then destination.volumes
            else destination.previous
          pending := false }) ∧
        ((∀ splitter, place ∉ graph.chain splitter) → latched[place]? = some destination)) ∧
    graph.volumeReset =
      operations.foldl (fun granted operation => operation.grantsReset granted) false ∧
    (∀ bytes : Bytes, bytes.length < addressSpace / 2 →
      ∃ taken changed, graph.update bytes = .ok (taken, changed) ∧
        ∀ (place : Nat) (destination : Destination),
          graph.destinations[place]? = some destination →
          ∃ after, changed.destinations[place]? = some after ∧ (after.previous, after.pending) =
            match (jumps graph.volumeReset destination.inUse
              (graph.naming bytes place)).getLast? with
            | some record => (record.volumes, false)
            | none => (destination.previous, destination.pending)) ∧
    ∀ (place : Nat) (destination : Destination), graph.destinations[place]? = some destination →
      destination.inUse = true → ∀ later : List Operation,
        (∀ operation ∈ later, operation.Fits ∧ operation.Spares graph place) →
        ∃ changed after, later.foldlM Operation.apply graph = .ok changed ∧
          changed.destinations[place]? = some after ∧ after.inUse = true ∧
          after.previous = destination.previous := by
  -- Each part is a fact about any sound graph, and a graph that is reached is sound.
  have sound := sound_of_runs fits reached
  refine ⟨sound.latch_chains, sound_empty.applyAll_volumeReset fits reached, ?_, ?_⟩
  · intro bytes room
    obtain ⟨taken, changed, ran, -⟩ := sound.update room
    refine ⟨taken, changed, ran, fun place destination held => ?_⟩
    -- After the update a destination has taken the records that name it, of which the last jump
    -- counts.
    have seen := sound.update_latched room ran place
    rw [held, Option.map_some] at seen
    obtain ⟨after, found, same⟩ := Option.map_eq_some_iff.mp seen
    exact ⟨after, found, (Prod.mk.inj same).2⟩
  · intro place destination held used later allowed
    exact sound.applyAll_spared (fun operation here => (allowed operation here).1)
      (fun operation here => (allowed operation here).2) held used

/-- One destination on the chain is latched and another is not pending, one off the chain waits on.
Of three records for one place the second asks for a reset, so that the third does not jump. -/
theorem runs_previous_volumes_reset :
    let flat (volume : UInt32) : Vector Single maxVolumes := .replicate _ ⟨volume⟩
    let record (id : Int32) (volume : UInt32) (reset : UInt8) : DestinationRecord :=
      ⟨destinationMagic, id, flat volume, 0, some (.replicate _ .zero), 1, reset, .zeros 10⟩
    let first : Section :=
      { header := ⟨headerMagic, 1, 3, .zeros 0x14⟩
        listings := [⟨⟨splitterMagic, 0, 48000, 2⟩, [0, 1]⟩]
        settings := [record 0 1 0, record 1 1 0, record 2 1 0] }
    let second : Section :=
      { header := ⟨headerMagic, 0, 4, .zeros 0x14⟩
        listings := []
        settings := [record 0 2 0, record 0 3 1, record 0 4 0, record 1 5 0] }
    let operations := [Operation.allocate .newest 1 3, .update first.encode,
      .edit 0 .mark, .edit 2 .mark, .edit 0 (.setVolume ⟨0, by decide⟩ ⟨9⟩),
      .edit 2 (.setVolume ⟨0, by decide⟩ ⟨9⟩)]
    ((∀ operation ∈ operations, operation.Fits) ∧ second.encode.length < addressSpace / 2) ∧
      ∃ graph latched taken changed, runs operations = .ok graph ∧
        graph.latch = .ok { graph with destinations := latched } ∧
        latched[0]?.map Destination.latched = some (true, (flat 1).set 0 ⟨9⟩ (by decide), false) ∧
        latched[1]?.map Destination.latched = some (true, flat 1, false) ∧
        latched[2]?.map Destination.latched = some (true, flat 1, true) ∧
        graph.update second.encode = .ok (taken, changed) ∧
        (changed.destinations[0]?.map fun destination =>
          (destination.previous, destination.pending)) = some (flat 3, false) ∧
        ∃ later after, [Operation.clearNew, .update second.encode].foldlM Operation.apply graph =
          .ok later ∧ later.destinations[1]? = some after ∧ after.inUse = true ∧
          after.previous = flat 1 := by
  intro flat record first second operations
  have fits : ∀ operation ∈ operations, operation.Fits := by
    simp only [operations, List.forall_mem_cons, Operation.Fits, true_and]
    exact ⟨by decide +kernel, by simp⟩
  have room : second.encode.length < addressSpace / 2 := by decide +kernel
  let graph := (runs operations).toOption.getD empty
  have reached : runs operations = .ok graph := by
    obtain ⟨same, ran, -⟩ := sound_empty.applyAll fits
    simp only [graph, runs, ran]
    rfl
  obtain ⟨⟨latched, latches, -, cells⟩, -, updates, spared⟩ := runs_previous_volumes fits reached
  obtain ⟨taken, changed, ran, sets⟩ := updates second.encode room
  let destination (place : Nat) := graph.destinations[place]?.getD (.create 0)
  have held : ∀ place < 3, graph.destinations[place]? = some (destination place) := by
    decide +kernel
  have chain : graph.chain 0 = [0, 1] := by decide +kernel
  have off : ∀ splitter, 2 ∉ graph.chain splitter := by
    intro splitter on
    -- A destination on a chain has an owner, and this one has none.
    have owned := ((sound_of_runs fits reached).linked.owned splitter 2).mp on
    have loose : graph.destinations[2]?.bind Destination.owner = none := by decide +kernel
    rw [loose] at owned
    cases owned
  refine ⟨⟨fits, room⟩, graph, latched, taken, changed, reached, latches, ?_, ?_, ?_, ran, ?_, ?_⟩
  · rw [(cells 0 _ (held 0 (by decide))).1 ⟨0, by rw [chain]; decide⟩]
    decide +kernel
  · rw [(cells 1 _ (held 1 (by decide))).1 ⟨0, by rw [chain]; decide⟩]
    decide +kernel
  · rw [(cells 2 _ (held 2 (by decide))).2 off]
    decide +kernel
  · obtain ⟨after, found, same⟩ := sets 0 _ (held 0 (by decide))
    rw [found, Option.map_some, same]
    decide +kernel
  · obtain ⟨later, after, applied, found, used, kept⟩ := spared 1 _ (held 1 (by decide))
      (by decide +kernel) [.clearNew, .update second.encode] (by
        simp only [List.forall_mem_cons, Operation.Fits, Operation.Spares, true_and]
        exact ⟨⟨room, by decide +kernel⟩, by simp⟩)
    exact ⟨later, after, applied, found, used, kept.trans (by decide +kernel)⟩

end Graph

end Mixdown.Splitter
