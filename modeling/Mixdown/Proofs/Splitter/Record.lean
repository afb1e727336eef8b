import Mixdown.Proofs.Bytes
import Mixdown.Splitter.Section

/-! The records of a section are read back as written, and each takes the bytes of its layout. -/

namespace Mixdown

namespace Biquad.FloatCoefficients

/-- Coefficients are read back. -/
theorem reader_encode (filter : FloatCoefficients) (rest : Bytes) :
    reader (filter.encode ++ rest) = some (filter, rest) := by
  -- The fields are read in the order in which they were written.
  simp only [reader, encode, List.append_assoc, List.cons_append, List.nil_append,
    Reader.bind_apply, Reader.uint8_cons, Option.bind_some, Reader.pure_apply,
    Reader.vector_ofVector Reader.uint8_singleton, Reader.vector_ofVector Reader.single_ofSingle]

/-- Coefficients take twenty-four bytes. -/
theorem takes_reader : Reader.Takes reader 24 :=
  Reader.takes_uint8.bind fun _ => (Reader.takes_uint8.vector 3).bind fun _ =>
    (Reader.takes_single.vector 3).bind fun _ => (Reader.takes_single.vector 2).bind fun _ =>
      .pure _

end Biquad.FloatCoefficients

namespace Splitter

/-- A header with all its bytes without meaning is read back. -/
theorem Header.reader_encode {header : Header} (full : header.reserved.length = 0x14)
    (rest : Bytes) : reader (header.encode ++ rest) = some (header, rest) := by
  simp only [reader, encode, List.append_assoc, Reader.bind_apply, Reader.uint32_ofUInt32,
    Reader.int32_ofInt32, Reader.bytes_append full, Option.bind_some, Reader.pure_apply]

/-- A header takes the bytes of its layout. -/
theorem Header.takes_reader : Reader.Takes reader size :=
  Reader.takes_uint32.bind fun _ => Reader.takes_int32.bind fun _ =>
    Reader.takes_int32.bind fun _ => (Reader.takes_bytes 0x14).bind fun _ => .pure _

/-- A splitter record is read back. -/
theorem SplitterRecord.reader_encode (record : SplitterRecord) (rest : Bytes) :
    reader (record.encode ++ rest) = some (record, rest) := by
  simp only [reader, encode, List.append_assoc, Reader.bind_apply, Reader.uint32_ofUInt32,
    Reader.int32_ofInt32, Option.bind_some, Reader.pure_apply]

/-- The fixed part of a splitter record takes the bytes of its layout. -/
theorem SplitterRecord.takes_reader : Reader.Takes reader size :=
  Reader.takes_uint32.bind fun _ => Reader.takes_int32.bind fun _ =>
    Reader.takes_uint32.bind fun _ => Reader.takes_uint32.bind fun _ => .pure _

/-- Identifiers are read back in order. -/
theorem identifiers_append (ids : List UInt32) (rest : Bytes) :
    identifiers ids.length (ids.flatMap Bytes.ofUInt32 ++ rest) = ids.map UInt32.toNat := by
  induction ids with
  | nil => rfl
  | cons id ids ih => simp [identifiers, ih]

/-- Asking for fewer identifiers yields the first of them. -/
theorem identifiers_take {fewer count : Nat} (most : fewer ≤ count) (bytes : Bytes) :
    identifiers fewer bytes = (identifiers count bytes).take fewer := by
  -- Both walks read the same identifiers until the shorter one stops.
  induction fewer generalizing count bytes with
  | zero => simp [identifiers]
  | succ fewer ih =>
    obtain ⟨count, rfl⟩ : ∃ previous, count = previous + 1 := ⟨count - 1, by omega⟩
    cases read : Reader.uint32 bytes with
    | none => simp [identifiers, read]
    | some found =>
      have later := @ih count (by omega)
      simp [identifiers, read, later]

namespace DestinationRecord

/-- A record is in a layout when it has the filters and the bytes without meaning of that layout. -/
structure InLayout (filtered : Bool) (record : DestinationRecord) : Prop where
  filters : record.filters.isSome = filtered
  reserved : record.reserved.length = reservedSize filtered

/-- A destination record is read back in its layout. -/
theorem reader_encode {filtered : Bool} {record : DestinationRecord}
    (layout : record.InLayout filtered) (rest : Bytes) :
    reader filtered (record.encode ++ rest) = some (record, rest) := by
  obtain ⟨magic, id, volumes, mixId, filters, inUse, resetPrevious, reserved⟩ := record
  obtain ⟨present, full⟩ := layout
  -- The layouts differ in the filters only, which are there exactly when they are expected.
  cases filters with
  | none =>
    obtain rfl : false = filtered := present
    simp only [reader, encode, List.append_assoc, List.cons_append, List.nil_append,
      Reader.bind_apply, Reader.uint32_ofUInt32, Reader.int32_ofInt32, Reader.uint8_cons,
      Reader.vector_ofVector Reader.single_ofSingle, Reader.bytes_append full, Option.bind_some,
      Reader.pure_apply, if_false, Bool.false_eq_true]
  | some filters =>
    obtain rfl : true = filtered := present
    simp only [reader, encode, List.append_assoc, List.cons_append, List.nil_append,
      Reader.bind_apply, Reader.uint32_ofUInt32, Reader.int32_ofInt32, Reader.uint8_cons,
      Reader.vector_ofVector Reader.single_ofSingle, Reader.bytes_append full, Option.bind_some,
      Reader.pure_apply, if_true, Reader.map_apply, Option.map_some,
      Reader.vector_ofVector Biquad.FloatCoefficients.reader_encode]

/-- A destination record takes the bytes of its layout. -/
theorem takes_reader (filtered : Bool) : Reader.Takes (reader filtered) (size filtered) := by
  have sum : size filtered = 4 + (4 + (maxVolumes * 4 + (4 +
      ((if filtered then maxFilters * 24 else 0) + (1 + (1 + (reservedSize filtered + 0))))))) := by
    cases filtered <;> rfl
  rw [sum]
  refine Reader.takes_uint32.bind fun _ => Reader.takes_int32.bind fun _ =>
    (Reader.takes_single.vector maxVolumes).bind fun _ => Reader.takes_uint32.bind fun _ => ?_
  -- The filters of the newer layout are the only part whose presence varies.
  cases filtered with
  | false =>
    exact (Reader.Takes.pure none).bind fun _ => Reader.takes_uint8.bind fun _ =>
      Reader.takes_uint8.bind fun _ => (Reader.takes_bytes _).bind fun _ => .pure _
  | true =>
    exact ((Biquad.FloatCoefficients.takes_reader.vector maxFilters).map some).bind fun _ =>
      Reader.takes_uint8.bind fun _ => Reader.takes_uint8.bind fun _ =>
        (Reader.takes_bytes _).bind fun _ => .pure _

end DestinationRecord

end Splitter

end Mixdown
