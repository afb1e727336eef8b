import Mixdown.Proofs.Splitter.Section

/-! An update sets every destination by the records that name it, and by no others. -/

namespace Mixdown.Splitter

/-- The records that name a place, in their order. -/
def recordsFor (settings : List (Nat × DestinationRecord)) (place : Nat) :
    List DestinationRecord :=
  settings.filterMap fun setting => if setting.1 = place then some setting.2 else none

/-- The destination with all that records set one after the other. -/
def Destination.acceptAll (destination : Destination) (records : List DestinationRecord) :
    Destination :=
  records.foldl accept destination

/-- Records have one effect on and off a chain. -/
theorem Destination.acceptAll_detach (destination : Destination)
    (records : List DestinationRecord) :
    (destination.acceptAll records).detach = destination.detach.acceptAll records :=
  (List.foldl_hom detach fun destination record => (destination.accept_detach record).symm).symm

/-- Of records that are numbered from zero on, each place below their number has its own one. -/
theorem recordsFor_range (record : Nat → DestinationRecord) (count place : Nat) :
    recordsFor ((List.range count).map fun index => (index, record index)) place =
      if place < count then [record place] else [] := by
  induction count with
  | zero => rfl
  | succ count ih =>
    simp only [recordsFor] at ih
    simp only [recordsFor, List.range_succ, List.map_append, List.filterMap_append, ih]
    -- The last record is the only one that the shorter list lacks.
    rcases Nat.lt_trichotomy place count with earlier | rfl | later
    · simp [earlier, Nat.lt_succ_of_lt earlier, Nat.ne_of_gt earlier]
    · simp
    · rw [if_neg (Nat.not_lt_of_gt later), if_neg (Nat.not_lt_of_ge later)]
      simp [Nat.ne_of_lt later]

namespace Graph

/-- Settings reach a destination through the records that name its place only. -/
theorem puts_getElem? (graph : Graph) (settings : List (Nat × DestinationRecord)) (place : Nat) :
    (settings.foldl put graph).destinations[place]? =
      graph.destinations[place]?.map
        (·.acceptAll ((recordsFor settings place).map graph.granted)) := by
  induction settings generalizing graph with
  | nil => simp [recordsFor, Destination.acceptAll]
  | cons setting settings ih =>
    -- What a revision grants is not changed by a record.
    have granted : (graph.put setting).granted = graph.granted := rfl
    rw [List.foldl_cons, ih, granted, put, Array.getElem?_modify]
    by_cases named : setting.1 = place
    · simp [recordsFor, named, Destination.acceptAll, Function.comp_def]
    · simp [recordsFor, named]

/-- Links have no part in what is set in a destination. -/
theorem detach_of_bare {changed graph : Graph} (same : changed.bare = graph.bare) (place : Nat) :
    changed.destinations[place]?.map Destination.detach =
      graph.destinations[place]?.map Destination.detach := by
  simpa [bare] using congrArg (fun graph => graph.destinations[place]?) same

/-- After an update a destination has its old settings with those of the records that name it. -/
theorem Sound.update_settings {graph changed : Graph} (sound : graph.Sound) {bytes : Bytes}
    (fits : bytes.length < addressSpace / 2) {scan : Scan}
    (found : graph.scan? bytes = some scan) {taken : Nat}
    (ran : graph.update bytes = .ok (taken, changed)) (place : Nat) :
    changed.destinations[place]?.map Destination.detach =
      graph.destinations[place]?.map fun destination =>
        destination.detach.acceptAll ((recordsFor scan.settings place).map graph.granted) := by
  obtain ⟨chains, represents⟩ := sound.represented
  obtain ⟨other, run, -, bare⟩ := update_eq represents sound.named fits found
  obtain ⟨-, rfl⟩ := Prod.mk.inj (Except.ok.inj (run.symm.trans ran))
  -- Neither the flags nor the rates of the splitters show in a destination.
  have granted : (scan.assignments.foldl note graph.clearNew).granted = graph.granted := by
    funext record
    simp only [Graph.granted, notes_volumeReset]
  rw [detach_of_bare bare, puts_getElem?, granted, notes_destinations, Option.map_map]
  congr 1
  funext destination
  exact destination.acceptAll_detach _

end Graph

end Mixdown.Splitter
