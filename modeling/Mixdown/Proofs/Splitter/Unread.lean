import Mixdown.Proofs.Splitter.Resend

/-! What a revision does not read of a section has no influence on any later state. -/

namespace Mixdown.Splitter

/-- The part of a destination record that a revision reads. -/
def DestinationRecord.read (revision : Revision) (record : DestinationRecord) :
    DestinationRecord :=
  { record with
    resetPrevious := if 13 ≤ revision.number then record.resetPrevious else 0
    reserved := [] }

/-- The part of a section that a revision reads. -/
def Section.read (revision : Revision) (sent : Section) : Section where
  header := { sent.header with reserved := [] }
  listings := sent.listings
  settings := sent.settings.map (·.read revision)

/-- The bytes that an operation takes, with the graph after it; only an update takes any. -/
def Operation.step (graph : Graph) : Operation → Except Fault (Nat × Graph)
  | update bytes => graph.update bytes
  | operation => do pure (0, ← operation.apply graph)

/-- What each of several operations takes, with the graph after it. -/
def Graph.trace (graph : Graph) : List Operation → Except Fault (List (Nat × Graph))
  | [] => .ok []
  | operation :: later => do
    let (taken, graph) ← operation.step graph
    pure ((taken, graph) :: (← graph.trace later))

/-- Operations are alike under a revision when they are the same or send sections of which the
revision reads the same, with anything behind them. -/
inductive Operation.Alike (graph : Graph) (revision : Revision) : Operation → Operation → Prop
  | same {operation : Operation} (fits : operation.Fits) (stays : operation.allocates = false) :
    Alike graph revision operation operation
  | sections {sent other : Section} {trailing behind : Bytes}
    (readable : sent.Readable graph.splitters.size graph.destinations.size graph.filtered)
    (readableToo : other.Readable graph.splitters.size graph.destinations.size graph.filtered)
    (same : other.read revision = sent.read revision)
    (room : (sent.encode ++ trailing).length < addressSpace / 2)
    (roomToo : (other.encode ++ behind).length < addressSpace / 2) :
    Alike graph revision (.update (sent.encode ++ trailing)) (.update (other.encode ++ behind))

/-- Sections of which a revision reads the same have the same listings and settings that read the
same. -/
theorem Section.parts_of_read {revision : Revision} {sent other : Section}
    (same : other.read revision = sent.read revision) : other.listings = sent.listings ∧
      other.settings.map (·.read revision) = sent.settings.map (·.read revision) := by
  simp only [read, mk.injEq] at same
  exact same.2

/-- Sections of which a revision reads the same are equally long. -/
theorem Section.Readable.length_of_read {splitters destinations : Nat} {filtered : Bool}
    {revision : Revision} {sent other : Section}
    (readable : sent.Readable splitters destinations filtered)
    (readableToo : other.Readable splitters destinations filtered)
    (same : other.read revision = sent.read revision) :
    other.encode.length = sent.encode.length := by
  obtain ⟨listings, settings⟩ := parts_of_read same
  have count : other.settings.length = sent.settings.length := by
    simpa using congrArg List.length settings
  rw [readable.length_eq, readableToo.length_eq, listings, count]

namespace Graph

variable {graph changed : Graph} {revision : Revision}

/-- Chains and everything but the links make up a graph. -/
theorem Represents.unique {chains : Chains} (left : Represents graph chains)
    (right : Represents changed chains) (same : changed.bare = graph.bare) : changed = graph := by
  have splitters : changed.splitters = graph.splitters :=
    splitters_eq (congrArg Graph.splitters same)
      (left.anchors_eq right (splitters_size_of_bare same))
  -- The chains decide the links, and everything else shows in the bare graphs.
  have bonds := left.bonds_eq right (destinations_size_of_bare same)
  have destinations : changed.destinations = graph.destinations := by
    refine Array.ext (destinations_size_of_bare same) fun place here there => ?_
    have alike : changed.destinations[place].detach = graph.destinations[place].detach := by
      simpa [here, there] using detach_of_bare same place
    have held : changed.destinations[place].bond = graph.destinations[place].bond := by
      simpa [here, there] using congrArg (·[place]?) bonds
    -- A destination is what it is on no chain, with its link and its owner.
    calc changed.destinations[place]
      _ = { changed.destinations[place].detach with
            next := changed.destinations[place].bond.1
            owner := changed.destinations[place].bond.2 } := rfl
      _ = graph.destinations[place] := by rw [alike, held]; rfl
  -- What the revision grants has no links in it at all.
  have rest := same
  simp only [bare, mk.injEq] at rest
  obtain ⟨-, -, freeLinking, volumeReset, filtered⟩ := rest
  cases changed
  cases graph
  simp only [mk.injEq]
  exact ⟨splitters, destinations, freeLinking, volumeReset, filtered⟩

/-- A destination is set by what the revision reads of a record. -/
theorem accept_read (grants : graph.volumeReset = true → 13 ≤ revision.number)
    (destination : Destination) (record : DestinationRecord) :
    destination.accept (graph.granted (record.read revision)) =
      destination.accept (graph.granted record) := by
  -- A reset that is granted is read, and one that is not is taken out of the record.
  cases granted : graph.volumeReset with
  | false =>
    simp only [Graph.granted, granted, Bool.false_eq_true, if_false]
    rfl
  | true =>
    have reset : (record.read revision).resetPrevious = record.resetPrevious :=
      if_pos (grants granted)
    simp only [Graph.granted, granted, if_true, Destination.accept, Destination.receive, reset]
    rfl

/-- Settings are put in place by what the revision reads of them. -/
theorem puts_read (grants : graph.volumeReset = true → 13 ≤ revision.number)
    (records : List DestinationRecord) :
    (((records.map (·.read revision)).map DestinationRecord.setting).foldl put graph) =
      (records.map DestinationRecord.setting).foldl put graph := by
  induction records generalizing graph with
  | nil => rfl
  | cons record records ih =>
    -- A record changes nothing about what is granted to the later ones.
    have first : graph.put (record.read revision).setting = graph.put record.setting := by
      simp only [put, DestinationRecord.setting, accept_read grants]
      rfl
    have later : (graph.put record.setting).volumeReset = true → 13 ≤ revision.number := grants
    simp only [List.map_cons, List.foldl_cons, first]
    exact ih later

/-- A sound graph that is sent either of two sections of which the revision reads the same takes
as many bytes and becomes the same graph. -/
theorem Sound.update_read (sound : graph.Sound)
    (grants : graph.volumeReset = true → 13 ≤ revision.number) {sent other : Section}
    {trailing behind : Bytes}
    (readable : sent.Readable graph.splitters.size graph.destinations.size graph.filtered)
    (readableToo : other.Readable graph.splitters.size graph.destinations.size graph.filtered)
    (same : other.read revision = sent.read revision)
    (room : (sent.encode ++ trailing).length < addressSpace / 2)
    (roomToo : (other.encode ++ behind).length < addressSpace / 2) :
    graph.update (other.encode ++ behind) = graph.update (sent.encode ++ trailing) := by
  by_cases unused : graph.splitters.size = 0 ∨ graph.destinations.size = 0
  · -- A graph that is not in use ignores both.
    have ignored (bytes : Bytes) : graph.update bytes = .ok (0, graph) :=
      update_eq_none (by simp only [scan?, Splitter.scan?, unused, if_true])
    rw [ignored, ignored]
  · obtain ⟨used, usedToo⟩ := not_or.mp unused
    obtain ⟨chains, represents⟩ := sound.represented
    obtain ⟨changed, update, linked, bare⟩ := update_eq represents sound.named room
      (readable.scan used usedToo trailing)
    obtain ⟨changedToo, updateToo, linkedToo, bareToo⟩ := update_eq represents sound.named roomToo
      (readableToo.scan used usedToo behind)
    -- The listings are the same, and the settings are put in place by what is read of them.
    obtain ⟨listings, settings⟩ := Section.parts_of_read same
    have puts := puts_read (notes_volumeReset graph (sent.listings.map Listing.assignment) ▸ grants)
    rw [listings] at linkedToo bareToo
    rw [← puts, settings, puts, ← bare] at bareToo
    -- So both updates leave graphs with the same chains that are the same without them.
    rw [update, updateToo, linked.unique linkedToo bareToo, Scan.length,
      readable.length_of_read readableToo same]
    rfl

/-- An operation that does not allocate takes a sound graph to a sound one of the same shape. -/
theorem Sound.step (sound : graph.Sound) {operation : Operation} (fits : operation.Fits)
    (stays : operation.allocates = false) :
    ∃ taken changed, operation.step graph = .ok (taken, changed) ∧ changed.Sound ∧
      changed.shape = graph.shape := by
  obtain ⟨changed, run, after, shape⟩ := sound.apply fits
  cases operation with
  | allocate revision splitters destinations => cases stays
  | update bytes => exact sound.update fits
  -- Anything but an update takes no bytes.
  | latch | clearNew | edit =>
    exact ⟨0, changed, by simp only [Operation.step, run]; rfl, after, shape rfl⟩

/-- Operations that are alike take the same and leave the same graph behind, a sound one of the same
shape. -/
theorem Sound.step_alike (sound : graph.Sound)
    (grants : graph.volumeReset = true → 13 ≤ revision.number) {left right : Operation}
    (alike : left.Alike graph revision right) :
    ∃ taken changed, left.step graph = .ok (taken, changed) ∧
      right.step graph = .ok (taken, changed) ∧ changed.Sound ∧ changed.shape = graph.shape := by
  cases alike with
  -- One and the same operation needs no comparison, only that it succeeds.
  | same fits stays =>
    obtain ⟨taken, changed, run, after, shape⟩ := sound.step fits stays
    exact ⟨taken, changed, run, run, after, shape⟩
  | sections readable readableToo same room roomToo =>
    obtain ⟨taken, changed, run, after, shape⟩ := sound.update room
    exact ⟨taken, changed, run,
      (sound.update_read grants readable readableToo same room roomToo).trans run, after, shape⟩

/-- Whether operations are alike depends on the shape of a graph only. -/
theorem alike_of_shape (same : changed.shape = graph.shape) {left right : Operation}
    (alike : left.Alike graph revision right) : left.Alike changed revision right := by
  have filtered : changed.filtered = graph.filtered := congrArg Shape.filtered same
  cases alike with
  | same fits stays => exact .same fits stays
  | sections readable readableToo reads room roomToo =>
    rw [← splitters_size_of_shape same, ← destinations_size_of_shape same, ← filtered]
      at readable readableToo
    exact .sections readable readableToo reads room roomToo

/-- A step comes before those of the later operations. -/
theorem trace_cons {operation : Operation} {later : List Operation} {taken : Nat}
    {steps : List (Nat × Graph)} (run : operation.step graph = .ok (taken, changed))
    (runLater : changed.trace later = .ok steps) :
    graph.trace (operation :: later) = .ok ((taken, changed) :: steps) := by
  simp only [trace, run, ok_bind, runLater, pure_eq_ok]

/-- Operations that are alike one by one take the same and leave the same graph at every step. -/
theorem Sound.trace_alike (sound : graph.Sound)
    (grants : graph.volumeReset = true → 13 ≤ revision.number) {first : Graph}
    (shape : graph.shape = first.shape) {left right : List Operation}
    (alike : List.Forall₂ (Operation.Alike first revision) left right) :
    ∃ steps, graph.trace left = .ok steps ∧ graph.trace right = .ok steps := by
  -- After each step the graph is one and the same sound graph, of the shape that it had before.
  induction alike generalizing graph with
  | nil => exact ⟨[], rfl, rfl⟩
  | cons here _ ih =>
    obtain ⟨taken, changed, run, runToo, after, kept⟩ :=
      sound.step_alike grants (alike_of_shape shape here)
    have granted : changed.volumeReset = graph.volumeReset := congrArg Shape.volumeReset kept
    obtain ⟨steps, later, laterToo⟩ := ih after (granted ▸ grants) (kept.trans shape)
    exact ⟨(taken, changed) :: steps, trace_cons run later, trace_cons runToo laterToo⟩

/--
Two runs on a newly allocated graph, whose operations are the same or send sections that differ only
in what the revision does not read, take as many bytes at every step and leave the same graph.
Only the bytes without meaning are never read, and before revision 13 neither is a request to reset.
-/
theorem trace_unread {splitters destinations : Nat} {left right : List Operation}
    (alike : List.Forall₂
      (Operation.Alike (empty.allocate revision splitters destinations) revision) left right) :
    ∃ steps, (empty.allocate revision splitters destinations).trace left = .ok steps ∧
      (empty.allocate revision splitters destinations).trace right = .ok steps := by
  -- A graph that is not allocated after all grants nothing, and any other what its revision does.
  have grants : (empty.allocate revision splitters destinations).volumeReset = true →
      13 ≤ revision.number := by
    rw [allocate]
    split
    · simp [empty]
    · exact of_decide_eq_true
  exact (sound_empty.allocate revision splitters destinations).trace_alike grants rfl alike

/-- Revision 12 reads neither the requests to reset nor the bytes without meaning, so a destination
that waits to be latched goes on waiting. -/
theorem trace_unread_reset :
    let revision : Revision := { number := 12 }
    let flat (volume : UInt32) : Vector Single maxVolumes := .replicate _ ⟨volume⟩
    let sent (volume : UInt32) (unread : UInt8) : Section :=
      { header := ⟨headerMagic, 1, 1, .replicate 0x14 unread⟩
        listings := [⟨⟨splitterMagic, 0, 48000, 1⟩, [0]⟩]
        settings := [⟨destinationMagic, 0, flat volume, 0, none, 1, unread, [unread, unread]⟩] }
    let operations (unread : UInt8) : List Operation :=
      [.update ((sent 1 unread).encode ++ [unread]), .edit 0 .mark,
        .update ((sent 2 unread).encode ++ [unread]), .latch]
    let graph := empty.allocate revision 1 1
    (List.Forall₂ (Operation.Alike graph revision) (operations 0) (operations 1) ∧
        (sent 2 0).encode ≠ (sent 2 1).encode) ∧
      ∃ steps, graph.trace (operations 0) = .ok steps ∧ graph.trace (operations 1) = .ok steps ∧
        steps.map Prod.fst = [176, 0, 176, 0] ∧
        (steps.map fun step => step.2.destinations[0]?.map fun destination =>
          (destination.previous, destination.pending)) = [some (flat 1, false),
            some (flat 1, true), some (flat 1, true), some (flat 2, false)] := by
  intro revision flat sent operations graph
  have readable : ∀ volume unread, (sent volume unread).Readable graph.splitters.size
      graph.destinations.size graph.filtered := by
    intro volume unread
    refine ⟨rfl, rfl, rfl, rfl, ?_, ?_⟩
    · simp only [sent, List.forall_mem_cons]
      exact ⟨⟨rfl, by decide, by decide +kernel, rfl⟩, by simp⟩
    · simp only [sent, List.forall_mem_cons]
      exact ⟨⟨rfl, show 0 ≤ (0 : Int32).toInt by decide,
        show (0 : Int32).toInt < graph.destinations.size by decide +kernel, rfl, rfl⟩, by simp⟩
  -- The two sections that are sent differ in their unread bytes, and the bytes behind them too.
  have alike : List.Forall₂ (Operation.Alike graph revision) (operations 0) (operations 1) := by
    refine .cons ?_ (.cons (.same trivial rfl) (.cons ?_ (.cons (.same trivial rfl) .nil)))
    · exact .sections (readable 1 0) (readable 1 1) rfl (by decide +kernel) (by decide +kernel)
    · exact .sections (readable 2 0) (readable 2 1) rfl (by decide +kernel) (by decide +kernel)
  obtain ⟨steps, run, runToo⟩ := trace_unread alike
  have seen : (graph.trace (operations 0)).toOption.map (fun steps => (steps.map Prod.fst,
      steps.map fun step => step.2.destinations[0]?.map fun destination =>
        (destination.previous, destination.pending))) =
      some ([176, 0, 176, 0], [some (flat 1, false), some (flat 1, true), some (flat 1, true),
        some (flat 2, false)]) := by
    decide +kernel
  rw [run] at seen
  obtain ⟨sizes, states⟩ := Prod.mk.inj (Option.some.inj seen)
  exact ⟨⟨alike, by decide +kernel⟩, steps, run, runToo, sizes, states⟩

end Graph

end Mixdown.Splitter
