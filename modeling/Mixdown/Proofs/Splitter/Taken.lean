import Mixdown.Proofs.Splitter.Runs

/-! An update takes no byte of what it refuses, and otherwise what the bytes alone ask for. -/

namespace Mixdown.Splitter

/-- A header that was read has the right magic when the byte string begins with it. -/
theorem Header.magic_eq {bytes rest : Bytes} {header : Header}
    (read : Header.reader bytes = some (header, rest)) :
    header.magic = headerMagic ↔ Bytes.ofUInt32 headerMagic <+: bytes := by
  simp only [reader, Reader.bind_apply, Reader.pure_apply, Option.bind_eq_some_iff, Prod.exists,
    Option.some.injEq, Prod.mk.injEq] at read
  -- The magic is the first of the four fields that were read, from the string as a whole.
  obtain ⟨magic, behind, first, _, _, -, _, _, -, _, _, -, rfl, -⟩ := read
  constructor
  · rintro rfl
    exact ⟨behind, (Reader.uint32_eq_some.mp first).symm⟩
  · rintro ⟨left, rfl⟩
    -- Whatever stands behind the magic, the first number of the string is read off its first bytes.
    rw [Reader.uint32_ofUInt32] at first
    exact (Prod.mk.inj (Option.some.inj first)).1.symm

/-- A section is no shorter than its header. -/
theorem le_scan?_size {splitters destinations : Nat} {filtered : Bool} {bytes : Bytes} {scan : Scan}
    (found : scan? splitters destinations filtered bytes = some scan) :
    Header.size ≤ scan.size := by
  -- The records are counted on top of the header.
  obtain ⟨-, -, header, rest, -, -, rfl⟩ := exists_header_of_scan? found
  simp only
  omega

/-- Rounding a section up leaves a multiple of the alignment, which is less than one step larger. -/
theorem Scan.length_bounds (scan : Scan) :
    sectionAlignment ∣ scan.length ∧ scan.size ≤ scan.length ∧
      scan.length < scan.size + sectionAlignment := by
  refine ⟨Nat.dvd_mul_left .., ?_⟩
  simp only [length, sectionAlignment]
  omega

namespace Graph

variable {graph : Graph} {bytes : Bytes}

/-- A graph refuses every byte string while it is not in use, and one that does not begin with a
section header always. -/
def Refuses (graph : Graph) (bytes : Bytes) : Prop :=
  graph.splitters.size = 0 ∨ graph.destinations.size = 0 ∨ bytes.length < Header.size ∨
    ¬ Bytes.ofUInt32 headerMagic <+: bytes

instance : Decidable (graph.Refuses bytes) := inferInstanceAs (Decidable (_ ∨ _ ∨ _ ∨ _))

/-- A byte string is a section for a graph unless the graph refuses it. -/
theorem scan?_eq_none : graph.scan? bytes = none ↔ graph.Refuses bytes := by
  simp only [scan?, Splitter.scan?, Refuses]
  by_cases unused : graph.splitters.size = 0 ∨ graph.destinations.size = 0
  · -- A graph without splitters or destinations does not even look at the string.
    simp only [unused, if_true, true_iff]
    exact unused.imp_right .inl
  · obtain ⟨splitters, destinations⟩ := not_or.mp unused
    simp only [splitters, destinations, or_self, false_or, if_false]
    rcases Nat.lt_or_ge bytes.length Header.size with short | long
    · simp [(Header.takes_reader bytes).1 short, short]
    · -- A string as long as a header holds one, so that its magic decides.
      obtain ⟨header, read⟩ := Header.takes_reader.found long
      simp [read, Header.magic_eq read, Nat.not_lt.mpr long]

/-- The bytes that an update takes. -/
def taken (graph : Graph) (bytes : Bytes) : Nat := ((graph.scan? bytes).map Scan.length).getD 0

/-- Graphs of one size and one layout of destinations take the same of a byte string. -/
theorem taken_congr {other : Graph} (splitters : other.splitters.size = graph.splitters.size)
    (destinations : other.destinations.size = graph.destinations.size)
    (filtered : other.filtered = graph.filtered) : other.taken bytes = graph.taken bytes := by
  simp only [taken, scan?, splitters, destinations, filtered]

/-- What is taken of a byte string is whole and within the address space. -/
theorem taken_bounds (room : bytes.length < addressSpace / 2) (some : graph.taken bytes ≠ 0) :
    sectionAlignment ∣ graph.taken bytes ∧ Header.size ≤ graph.taken bytes ∧
      graph.taken bytes < addressSpace := by
  cases found : graph.scan? bytes with
  | none => simp [taken, found] at some
  | some scan =>
    -- Beyond the bytes there is at most one record, which is small beside the address space.
    have most := scan?_size_le found
    have least := le_scan?_size found
    obtain ⟨whole, above, below⟩ := scan.length_bounds
    have small : SplitterRecord.largestSpan + sectionAlignment ≤ addressSpace / 2 := by decide
    simp only [taken, found, Option.map_some, Option.getD_some]
    exact ⟨whole, by omega, by omega⟩

/-- Nothing is taken of what is refused, and something of everything else. -/
theorem taken_eq_zero : graph.taken bytes = 0 ↔ graph.Refuses bytes := by
  rw [← scan?_eq_none]
  -- What is scanned is as long as a header at least, so that it is never taken for nothing.
  cases found : graph.scan? bytes with
  | none => simp [taken, found]
  | some scan =>
    have positive : 0 < Header.size := by decide
    have least := le_scan?_size found
    have above := scan.length_bounds.2.1
    simp only [taken, found, Option.map_some, Option.getD_some, reduceCtorEq, iff_false]
    omega

/-- An update of a sound graph takes what its bytes say, whatever the chains are. -/
theorem Sound.update_taken (sound : graph.Sound) (room : bytes.length < addressSpace / 2) :
    ∃ changed, graph.update bytes = .ok (graph.taken bytes, changed) ∧
      (graph.Refuses bytes → changed = graph) := by
  rw [← scan?_eq_none]
  cases found : graph.scan? bytes with
  | none => exact ⟨graph, by simpa [taken, found] using update_eq_none found, fun _ => rfl⟩
  | some scan =>
    obtain ⟨chains, represents⟩ := sound.represented
    obtain ⟨changed, ran, -⟩ := update_eq represents sound.named room found
    exact ⟨changed, by simpa [taken, found] using ran, nofun⟩

/--
An update of any reachable graph succeeds. It takes nothing just where the graph refuses the bytes,
which leaves the graph as it was. What it takes otherwise is a multiple of the alignment and no less
than a header, and any other reachable graph with as many splitters and destinations and the same
layout of destinations takes as much.
-/
theorem runs_update_taken {operations : List Operation}
    (fits : ∀ operation ∈ operations, operation.Fits)
    (reached : runs operations = .ok graph) (room : bytes.length < addressSpace / 2) :
    ∃ taken changed, graph.update bytes = .ok (taken, changed) ∧
      (taken = 0 ↔ graph.Refuses bytes) ∧ (taken = 0 → changed = graph) ∧
      (taken ≠ 0 → sectionAlignment ∣ taken ∧ Header.size ≤ taken ∧ taken < addressSpace) ∧
      ∀ (others : List Operation) (other : Graph), (∀ operation ∈ others, operation.Fits) →
        runs others = .ok other → other.splitters.size = graph.splitters.size →
        other.destinations.size = graph.destinations.size → other.filtered = graph.filtered →
        ∃ after, other.update bytes = .ok (taken, after) := by
  -- Soundness is all that an update needs of the operations that went before.
  obtain ⟨changed, ran, unchanged⟩ := (sound_of_runs fits reached).update_taken room
  refine ⟨_, changed, ran, taken_eq_zero, fun none => unchanged (taken_eq_zero.mp none),
    taken_bounds room, fun others other fits reached splitters destinations filtered => ?_⟩
  obtain ⟨after, ranToo, -⟩ := (sound_of_runs fits reached).update_taken room
  exact ⟨after, by rw [ranToo, taken_congr splitters destinations filtered]⟩

/-- A graph takes as much of a section that it has chains from as a new one does, to the end of the
identifiers that the last record declares and does not bring, and nothing of less than a header. -/
theorem runs_update_taken_again :
    let bytes := Header.encode ⟨headerMagic, 2, 1, .zeros 0x14⟩ ++
      SplitterRecord.encode ⟨splitterMagic, 0, 48000, 2⟩ ++ [0, 1].flatMap Bytes.ofUInt32 ++
      SplitterRecord.encode ⟨splitterMagic, 1, 44100, 9⟩ ++ [2].flatMap Bytes.ofUInt32
    let operations := [Operation.allocate .newest 2 3, .update bytes]
    let others := [Operation.allocate .newest 2 3]
    ((∀ operation ∈ operations, operation.Fits) ∧ (∀ operation ∈ others, operation.Fits) ∧
        bytes.length < addressSpace / 2) ∧
      ∃ graph other changed again, runs operations = .ok graph ∧ runs others = .ok other ∧
        graph.chain 0 = [0, 1] ∧ other.chain 0 = [] ∧ graph.update bytes = .ok (0x70, changed) ∧
        other.update bytes = .ok (0x70, again) ∧
        graph.update (bytes.take 0x1F) = .ok (0, graph) := by
  intro bytes operations others
  have room : bytes.length < addressSpace / 2 := by decide +kernel
  have fits : ∀ operation ∈ operations, operation.Fits := by
    simpa [operations, Operation.Fits] using room
  have fitsToo : ∀ operation ∈ others, operation.Fits := by simp [others, Operation.Fits]
  have start : runs others = .ok (empty.allocate .newest 2 3) := rfl
  obtain ⟨graph, reached, -⟩ : ∃ graph, runs operations = .ok graph ∧ graph.Sound :=
    sound_empty.applyAll fits
  -- What the theorem leaves open at these bytes is read off the graph that runs to this point.
  have seen : (runs operations).toOption.map (fun graph => (graph.chain 0, graph.taken bytes,
      graph.splitters.size, graph.destinations.size, graph.filtered)) =
        some ([0, 1], 0x70, 2, 3, true) := by
    decide +kernel
  simp only [reached, Except.toOption, Option.map_some, Option.some.injEq, Prod.mk.injEq] at seen
  obtain ⟨chain, amount, splitters, destinations, filtered⟩ := seen
  obtain ⟨taken, changed, ran, -, -, -, alike⟩ := runs_update_taken fits reached room
  have sizes : (empty.allocate .newest 2 3).splitters.size = 2 ∧
      (empty.allocate .newest 2 3).destinations.size = 3 := by
    decide +kernel
  obtain ⟨again, ranToo⟩ := alike others _ fitsToo start (sizes.1.trans splitters.symm)
    (sizes.2.trans destinations.symm) filtered.symm
  have short : (bytes.take 0x1F).length < Header.size := by decide +kernel
  have shortRoom : (bytes.take 0x1F).length < addressSpace / 2 := by decide +kernel
  obtain ⟨none, same, refused, nothing, unchanged, -⟩ := runs_update_taken fits reached shortRoom
  obtain rfl := nothing.mpr (.inr (.inr (.inl short)))
  obtain rfl := unchanged rfl
  obtain ⟨_, measured, -⟩ := (sound_of_runs fits reached).update_taken room
  obtain rfl : taken = 0x70 := by
    rw [← amount]
    exact (Prod.mk.inj (Except.ok.inj (ran.symm.trans measured))).1
  exact ⟨⟨fits, fitsToo, room⟩, _, _, changed, again, reached, start, chain, by decide +kernel, ran,
    ranToo, refused⟩

end Graph

end Mixdown.Splitter
