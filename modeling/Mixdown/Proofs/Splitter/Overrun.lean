import Mixdown.Proofs.Splitter.Taken

/-!
An update takes no more than its bytes rounded up, as long as the last splitter record brings the
identifiers that it declares.
-/

namespace Mixdown.Splitter

/-- A number of bytes, rounded up to the alignment of sections. -/
def roundedUp (size : Nat) : Nat :=
  (size + sectionAlignment - 1) / sectionAlignment * sectionAlignment

/-- What has been rounded up is not exceeded by rounding up anything that lies below it. -/
theorem roundedUp_le_roundedUp {size limit : Nat} :
    roundedUp size ≤ roundedUp limit ↔ size ≤ roundedUp limit := by
  -- The limit is a multiple of the alignment, so that rounding up does not pass it.
  simp only [roundedUp, sectionAlignment]
  omega

/-- The identifiers that a record declares and that do not follow it. -/
def Assignment.missing (assignment : Assignment) : Nat :=
  assignment.record.count.toNat - assignment.ids.length

/-- The identifiers that the last of some records lacks. -/
def missingIn (assignments : List Assignment) : Nat :=
  (assignments.getLast?.map Assignment.missing).getD 0

/-- A record that lacks nothing leaves open what the records behind it lack. -/
theorem missingIn_cons {assignment : Assignment} (whole : assignment.missing = 0)
    (later : List Assignment) : missingIn (assignment :: later) = missingIn later := by
  simp only [missingIn, List.getLast?_cons, Option.map_some, Option.getD_some]
  -- The last record is the first one only if no other comes behind it.
  cases later.getLast? with
  | none => simpa using whole
  | some last => rfl

/-- As many identifiers are read as are asked for, or as there are whole ones in the bytes. -/
theorem identifiers_length (count : Nat) (bytes : Bytes) :
    (identifiers count bytes).length = min count (bytes.length / identifierSize) := by
  -- Each identifier that is read shortens the bytes by its size.
  induction count generalizing bytes with
  | zero => simp [identifiers]
  | succ count ih =>
    cases read : Reader.uint32 bytes with
    | none =>
      -- A number of four bytes is read whenever there are four.
      have short : bytes.length < 4 := by
        rcases Nat.lt_or_ge bytes.length 4 with short | long
        · exact short
        · obtain ⟨value, found⟩ := Reader.takes_uint32.found long
          simp [found] at read
      simp only [identifiers, read, List.length_nil, identifierSize]
      omega
    | some found =>
      obtain ⟨id, rest⟩ := found
      obtain ⟨long, rfl⟩ := Reader.takes_uint32.rest read
      simp only [identifiers, read, List.length_cons, ih, List.length_drop, identifierSize]
      omega

/-- A record that lies within the bytes lacks no identifier, and one that does not would end where
the bytes with the missing identifiers would. -/
theorem missing_read {bytes : Bytes} (long : SplitterRecord.size ≤ bytes.length)
    (splitter : Nat) (record : SplitterRecord) {assignment : Assignment}
    (read : assignment = ⟨splitter, record,
      identifiers record.count.toNat (bytes.drop SplitterRecord.size)⟩) :
    (record.span ≤ bytes.length → assignment.missing = 0) ∧
    (bytes.length < record.span → assignment.missing ≠ 0 ∧
      record.span = (bytes.length / identifierSize + assignment.missing) * identifierSize) := by
  subst read
  have brought := identifiers_length record.count.toNat (bytes.drop SplitterRecord.size)
  rw [List.length_drop] at brought
  -- The fixed part of a record is as long as four identifiers, so that nothing is left over.
  simp only [Assignment.missing, brought, SplitterRecord.span]
  simp only [SplitterRecord.size, identifierSize] at long ⊢
  omega

/-- Splitter records lie within the bytes, unless the last one lacks identifiers; then they end where
the bytes with the missing identifiers would. -/
theorem scanSplitters_overrun (splitters count : Nat) (bytes : Bytes) :
    (missingIn (scanSplitters splitters count bytes).1 = 0 →
      (scanSplitters splitters count bytes).2 ≤ bytes.length) ∧
    (missingIn (scanSplitters splitters count bytes).1 ≠ 0 →
      (scanSplitters splitters count bytes).2 =
        (bytes.length / identifierSize + missingIn (scanSplitters splitters count bytes).1) *
          identifierSize) := by
  -- A record that runs beyond the bytes is the last one, and one that does not lacks nothing.
  induction count generalizing bytes with
  | zero => simp [scanSplitters, missingIn]
  | succ count ih =>
    cases read : SplitterRecord.reader bytes with
    | none => simp [scanSplitters, read, missingIn]
    | some found =>
      obtain ⟨record, rest⟩ := found
      obtain ⟨long, rfl⟩ := SplitterRecord.takes_reader.rest read
      simp only [scanSplitters, read]
      split
      · simp [missingIn]
      · split
        · simp [missingIn]
        · next splitter named =>
          obtain ⟨within, beyond⟩ := missing_read long splitter record rfl
          rcases Nat.lt_or_ge bytes.length record.span with short | whole
          · -- Nothing is left to read another record from.
            obtain ⟨some, ends⟩ := beyond short
            rw [List.drop_eq_nil_of_le (Nat.le_of_lt short), scanSplitters_nil]
            exact ⟨fun none => absurd none some, fun _ => ends⟩
          · -- The other records are scanned behind this one, in what it leaves of the bytes.
            have later := ih (bytes.drop record.span)
            rw [List.length_drop] at later
            simp only [missingIn_cons (within whole)]
            simp only [SplitterRecord.span, SplitterRecord.size, identifierSize] at whole later ⊢
            omega

/-- A section lies within its bytes, unless its last splitter record lacks identifiers; then it ends
where the bytes with the missing identifiers would. -/
theorem scan?_overrun {splitters destinations : Nat} {filtered : Bool} {bytes : Bytes} {scan : Scan}
    (found : scan? splitters destinations filtered bytes = some scan) :
    (missingIn scan.assignments = 0 → scan.size ≤ bytes.length) ∧
    (missingIn scan.assignments ≠ 0 →
      scan.size =
        (bytes.length / identifierSize + missingIn scan.assignments) * identifierSize) := by
  obtain ⟨-, -, header, rest, read, -, rfl⟩ := exists_header_of_scan? found
  obtain ⟨long, rfl⟩ := Header.takes_reader.rest read
  have first := scanSplitters_overrun splitters (Graph.declared header.splitters)
    (bytes.drop Header.size)
  generalize scanSplitters splitters (Graph.declared header.splitters)
    (bytes.drop Header.size) = scanned at first ⊢
  -- What the splitter records leave of the bytes is nothing when the last one lacks any.
  have second := scanDestinations_le destinations filtered
    (Graph.declared header.destinations) ((bytes.drop Header.size).drop scanned.2)
  simp only [List.length_drop] at first second
  simp only [Header.size, identifierSize] at first second long ⊢
  omega

namespace Graph

variable {graph : Graph} {bytes : Bytes}

/-- The identifiers that the last splitter record of a section declares and does not bring. -/
def missing (graph : Graph) (bytes : Bytes) : Nat :=
  ((graph.scan? bytes).map fun scan => missingIn scan.assignments).getD 0

/-- What is taken does not pass the bytes rounded up when no identifier is missing, and otherwise is
what the bytes and the missing identifiers come to. -/
theorem taken_overrun (graph : Graph) (bytes : Bytes) :
    (graph.missing bytes = 0 → graph.taken bytes ≤ roundedUp bytes.length) ∧
    (graph.missing bytes ≠ 0 → graph.taken bytes =
      roundedUp ((bytes.length / identifierSize + graph.missing bytes) * identifierSize)) := by
  -- Nothing is taken of bytes in which no section is found.
  cases found : graph.scan? bytes with
  | none => simp [missing, taken, found]
  | some scan =>
    obtain ⟨whole, short⟩ := scan?_overrun found
    simp only [missing, taken, found, Option.map_some, Option.getD_some]
    refine ⟨fun none => ?_, fun some => ?_⟩
    · have inside : scan.size ≤ roundedUp bytes.length := by
        have := whole none
        simp only [roundedUp, sectionAlignment]
        omega
      exact roundedUp_le_roundedUp.mpr inside
    · show roundedUp scan.size = _
      rw [short some]

/--
An update of any reachable graph takes no more than its bytes rounded up just when the identifiers
that the last splitter record declares and does not bring would have room in the padding, and
therefore always when none is missing. When some are missing, it takes what the bytes with them would
come to.
-/
theorem runs_update_within {operations : List Operation}
    (fits : ∀ operation ∈ operations, operation.Fits)
    (reached : runs operations = .ok graph) (room : bytes.length < addressSpace / 2) :
    ∃ taken changed, graph.update bytes = .ok (taken, changed) ∧
      (graph.missing bytes = 0 → taken ≤ roundedUp bytes.length) ∧
      (graph.missing bytes ≠ 0 → taken =
        roundedUp ((bytes.length / identifierSize + graph.missing bytes) * identifierSize)) ∧
      (taken ≤ roundedUp bytes.length ↔
        bytes.length / identifierSize + graph.missing bytes ≤
          roundedUp bytes.length / identifierSize) := by
  obtain ⟨changed, ran, -⟩ := (sound_of_runs fits reached).update_taken room
  obtain ⟨whole, short⟩ := taken_overrun graph bytes
  refine ⟨_, changed, ran, whole, short, ?_⟩
  by_cases none : graph.missing bytes = 0
  · -- Whole identifiers in the bytes are no more than those in the bytes rounded up.
    have inside : bytes.length ≤ roundedUp bytes.length := roundedUp_le_roundedUp.mp le_rfl
    simp only [none, whole none, Nat.add_zero, true_iff]
    exact Nat.div_le_div_right inside
  · -- Both sides of the bound are whole numbers of identifiers.
    rw [short none, roundedUp_le_roundedUp]
    simp only [identifierSize]
    omega

/-- A record that declares five identifiers at the end of the bytes is taken for more than there is. -/
theorem runs_update_beyond :
    let bytes := Header.encode ⟨headerMagic, 1, 0, .zeros 0x14⟩ ++
      SplitterRecord.encode ⟨splitterMagic, 0, 48000, 5⟩
    ∃ graph changed, runs [.allocate .newest 1 1] = .ok graph ∧
      graph.update bytes = .ok (0x50, changed) ∧ ¬0x50 ≤ roundedUp bytes.length := by
  intro bytes
  have reached : runs [.allocate .newest 1 1] = .ok (empty.allocate .newest 1 1) := rfl
  have taken : ((empty.allocate .newest 1 1).update bytes).toOption.map Prod.fst = some 0x50 := by
    decide +kernel
  cases ran : (empty.allocate .newest 1 1).update bytes with
  | error fault => simp [ran, Except.toOption] at taken
  | ok result =>
    obtain ⟨length, changed⟩ := result
    obtain rfl : length = 0x50 := by simpa [ran, Except.toOption] using taken
    exact ⟨_, changed, reached, ran, by decide +kernel⟩

/-- One identifier that is missing has room in the padding, and nine have not. -/
theorem runs_update_within_padding :
    let operations := [Operation.allocate .newest 2 3]
    let front := Header.encode ⟨headerMagic, 2, 0, .zeros 0x14⟩ ++
      SplitterRecord.encode ⟨splitterMagic, 0, 48000, 2⟩ ++ [0, 1].flatMap Bytes.ofUInt32
    let few := front ++ SplitterRecord.encode ⟨splitterMagic, 1, 44100, 2⟩ ++ .ofUInt32 2
    let many := front ++ SplitterRecord.encode ⟨splitterMagic, 1, 44100, 10⟩ ++ .ofUInt32 2
    ((∀ operation ∈ operations, operation.Fits) ∧ few.length < addressSpace / 2 ∧
        many.length < addressSpace / 2) ∧
      ∃ graph changed other, runs operations = .ok graph ∧
        (graph.missing few = 1 ∧ graph.update few = .ok (0x50, changed) ∧
          roundedUp few.length = 0x50) ∧
        (graph.missing many = 9 ∧ graph.update many = .ok (0x70, other) ∧
          roundedUp many.length = 0x50) := by
  intro operations front few many
  have fits : ∀ operation ∈ operations, operation.Fits := by simp [operations, Operation.Fits]
  have reached : runs operations = .ok (empty.allocate .newest 2 3) := rfl
  have room : few.length < addressSpace / 2 := by decide +kernel
  have roomToo : many.length < addressSpace / 2 := by decide +kernel
  -- Four bytes are missing at the end of the one section, and thirty-six at the end of the other.
  have one : (empty.allocate .newest 2 3).missing few = 1 := by decide +kernel
  have nine : (empty.allocate .newest 2 3).missing many = 9 := by decide +kernel
  obtain ⟨taken, changed, ran, -, sum, -⟩ := runs_update_within fits reached room
  obtain ⟨takenToo, other, ranToo, -, sumToo, -⟩ := runs_update_within fits reached roomToo
  obtain rfl : taken = 0x50 := by
    rw [sum (by rw [one]; decide), one]
    decide +kernel
  obtain rfl : takenToo = 0x70 := by
    rw [sumToo (by rw [nine]; decide), nine]
    decide +kernel
  exact ⟨⟨fits, room, roomToo⟩, _, changed, other, reached, ⟨one, ran, by decide +kernel⟩,
    nine, ranToo, by decide +kernel⟩

end Graph

end Mixdown.Splitter
