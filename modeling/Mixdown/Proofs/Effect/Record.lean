import Mixdown.Effect.Record
import Mixdown.Proofs.Bytes

/-!
Effect records, the parameters in them and the results of effects are read back as written, and a
record of filters is written as the bytes that it was read from.
-/

namespace Mixdown

namespace Biquad.Coefficients

/-- Coefficients are read back. -/
theorem reads_encode (coefficients : Coefficients) :
    Reader.Reads reader coefficients.encode coefficients :=
  -- The fields are read in the order in which they are encoded, each in front of those behind it.
  .bind (Reader.vector_ofVector Reader.int16_ofInt16 _) <|
    .last (Reader.vector_ofVector Reader.int16_ofInt16 _) _

/-- Coefficients that were read stand in the bytes that were there. -/
theorem restores_reader : Reader.Restores reader encode := by
  -- Each part was read from the bytes in front of what is left for the next one.
  intro bytes rest value read
  obtain ⟨⟨numerator, middle⟩, first, read⟩ := Option.bind_eq_some_iff.mp read
  obtain ⟨⟨denominator, behind⟩, second, read⟩ := Option.bind_eq_some_iff.mp read
  obtain ⟨rfl, rfl⟩ := Prod.mk.inj (Option.some.inj read)
  rw [Reader.restores_int16.vector _ first, Reader.restores_int16.vector _ second, encode,
    List.append_assoc]

/-- Coefficients take ten bytes. -/
theorem takes_reader : Reader.Takes reader 10 :=
  (Reader.takes_int16.vector 3).bind fun _ => (Reader.takes_int16.vector 2).bind fun _ => .pure _

end Biquad.Coefficients

namespace Limiter.Parameters

/-- A limiter's parameters are read back. -/
theorem reads_encode (parameters : Parameters) :
    Reader.Reads reader parameters.encode parameters := by
  simp only [encode, List.append_assoc]
  exact .bind (Reader.vector_ofVector Reader.int8_ofInt8 _) <|
    .bind (Reader.vector_ofVector Reader.int8_ofInt8 _) <|
    .bind (Reader.uint16_ofUInt16 _) <| .bind (Reader.uint16_ofUInt16 _) <|
    .bind (Reader.int32_ofInt32 _) <| .bind (Reader.single_ofSingle _) <|
    .bind (Reader.single_ofSingle _) <| .bind (Reader.single_ofSingle _) <|
    .bind (Reader.single_ofSingle _) <| .bind (Reader.single_ofSingle _) <|
    .bind (Reader.uint8_singleton _) <| .bind (Reader.uint8_singleton _) <|
    .last (Reader.vector_ofVector Reader.uint8_singleton _) _

/-- A limiter's parameters take forty-four bytes. -/
theorem takes_reader : Reader.Takes reader 44 :=
  (Reader.takes_int8.vector maxChannels).bind fun _ =>
    (Reader.takes_int8.vector maxChannels).bind fun _ =>
    Reader.takes_uint16.bind fun _ => Reader.takes_uint16.bind fun _ =>
    Reader.takes_int32.bind fun _ => Reader.takes_single.bind fun _ =>
    Reader.takes_single.bind fun _ => Reader.takes_single.bind fun _ =>
    Reader.takes_single.bind fun _ => Reader.takes_single.bind fun _ =>
    Reader.takes_uint8.bind fun _ => Reader.takes_uint8.bind fun _ =>
    (Reader.takes_uint8.vector 2).bind fun _ => .pure _

end Limiter.Parameters

namespace Limiter.State

/-- A limiter's state is read back. -/
theorem reads_encode (state : State) : Reader.Reads reader state.encode state := by
  simp only [encode, List.append_assoc]
  exact .bind (Reader.single_ofSingle _) <| .bind (Reader.single_ofSingle _) <|
    .bind (Reader.single_ofSingle _) <| .bind (Reader.uint32_ofUInt32 _) <|
    .last (Reader.vector_ofVector Reader.single_ofSingle _) _

/-- A limiter's state takes forty bytes. -/
theorem takes_reader : Reader.Takes reader 0x28 :=
  Reader.takes_single.bind fun _ => Reader.takes_single.bind fun _ =>
    Reader.takes_single.bind fun _ => Reader.takes_uint32.bind fun _ =>
    (Reader.takes_single.vector maxChannels).bind fun _ => .pure _

end Limiter.State

namespace Compressor.Parameters

/-- A compressor's parameters are read back. -/
theorem reads_encode (parameters : Parameters) :
    Reader.Reads reader parameters.encode parameters := by
  simp only [encode, List.append_assoc]
  exact .bind (Reader.vector_ofVector Reader.int8_ofInt8 _) <|
    .bind (Reader.vector_ofVector Reader.int8_ofInt8 _) <|
    .bind (Reader.int16_ofInt16 _) <| .bind (Reader.int16_ofInt16 _) <|
    .bind (Reader.int32_ofInt32 _) <| .bind (Reader.single_ofSingle _) <|
    .bind (Reader.single_ofSingle _) <| .bind (Reader.int32_ofInt32 _) <|
    .bind (Reader.int32_ofInt32 _) <| .bind (Reader.single_ofSingle _) <|
    .bind (Reader.single_ofSingle _) <| .bind (Reader.single_ofSingle _) <|
    .bind (Reader.single_ofSingle _) <| .bind (Reader.uint8_singleton _) <|
    .bind (Reader.uint8_singleton _) <| .bind (Reader.uint8_singleton _) <|
    .bind (Reader.uint8_singleton _) <|
    .last (Reader.vector_ofVector Reader.uint8_singleton _) _

/-- A compressor's parameters take sixty-four bytes. -/
theorem takes_reader : Reader.Takes reader 64 :=
  (Reader.takes_int8.vector maxChannels).bind fun _ =>
    (Reader.takes_int8.vector maxChannels).bind fun _ =>
    Reader.takes_int16.bind fun _ => Reader.takes_int16.bind fun _ =>
    Reader.takes_int32.bind fun _ => Reader.takes_single.bind fun _ =>
    Reader.takes_single.bind fun _ => Reader.takes_int32.bind fun _ =>
    Reader.takes_int32.bind fun _ => Reader.takes_single.bind fun _ =>
    Reader.takes_single.bind fun _ => Reader.takes_single.bind fun _ =>
    Reader.takes_single.bind fun _ => Reader.takes_uint8.bind fun _ =>
    Reader.takes_uint8.bind fun _ => Reader.takes_uint8.bind fun _ =>
    Reader.takes_uint8.bind fun _ => (Reader.takes_uint8.vector 8).bind fun _ => .pure _

end Compressor.Parameters

namespace Compressor.Statistics

/-- A compressor's statistics are read back. -/
theorem reads_encode (statistics : Statistics) :
    Reader.Reads reader statistics.encode statistics := by
  simp only [encode, List.append_assoc]
  exact .bind (Reader.single_ofSingle _) <| .bind (Reader.single_ofSingle _) <|
    .last (Reader.vector_ofVector Reader.single_ofSingle _) _

/-- A compressor's statistics take thirty-two bytes. -/
theorem takes_reader : Reader.Takes reader 0x20 :=
  Reader.takes_single.bind fun _ => Reader.takes_single.bind fun _ =>
    (Reader.takes_single.vector maxChannels).bind fun _ => .pure _

end Compressor.Statistics

namespace Effect

namespace BiquadParameters

/-- A filter's parameters are read back. -/
theorem reads_encode (parameters : BiquadParameters) :
    Reader.Reads reader parameters.encode parameters := by
  simp only [encode, List.append_assoc]
  exact .bind (Reader.vector_ofVector Reader.int8_ofInt8 _) <|
    .bind (Reader.vector_ofVector Reader.int8_ofInt8 _) <|
    .bind (Biquad.Coefficients.reads_encode _) <| .bind (Reader.int8_ofInt8 _) <|
    .last (Reader.uint8_singleton _) _

/-- A filter's parameters that were read stand in the bytes that were there. -/
theorem restores_reader : Reader.Restores reader encode := by
  -- Each field was read from the bytes in front of what is left for the next one.
  intro bytes rest value read
  obtain ⟨⟨inputs, _⟩, first, read⟩ := Option.bind_eq_some_iff.mp read
  obtain ⟨⟨outputs, _⟩, second, read⟩ := Option.bind_eq_some_iff.mp read
  obtain ⟨⟨coefficients, _⟩, third, read⟩ := Option.bind_eq_some_iff.mp read
  obtain ⟨⟨channels, _⟩, fourth, read⟩ := Option.bind_eq_some_iff.mp read
  obtain ⟨⟨phase, _⟩, fifth, read⟩ := Option.bind_eq_some_iff.mp read
  obtain ⟨rfl, rfl⟩ := Prod.mk.inj (Option.some.inj read)
  rw [Reader.restores_int8.vector _ first, Reader.restores_int8.vector _ second,
    Biquad.Coefficients.restores_reader third, Reader.restores_int8 fourth,
    Reader.restores_uint8 fifth]
  simp only [encode, List.append_assoc]

/-- A filter's parameters take twenty-four bytes. -/
theorem takes_reader : Reader.Takes reader 24 :=
  (Reader.takes_int8.vector maxChannels).bind fun _ =>
    (Reader.takes_int8.vector maxChannels).bind fun _ =>
    Biquad.Coefficients.takes_reader.bind fun _ => Reader.takes_int8.bind fun _ =>
    Reader.takes_uint8.bind fun _ => .pure _

end BiquadParameters

namespace Record

/-- A record is well-formed when its bytes without a number in them fill their parts of it. -/
structure WellFormed (record : Record) : Prop where
  padding : record.padding.length = 4
  specific : record.specific.length = specificSize

/-- A record of parameters that fit is well-formed. -/
theorem create_wellFormed (kind : Kind) (order : UInt32) {parameters : Bytes}
    (fits : parameters.length ≤ specificSize) : (create kind order parameters).WellFormed where
  padding := rfl
  specific := Bytes.length_padTo fits

/-- A well-formed record is read back. -/
theorem reads_encode {record : Record} (formed : record.WellFormed) :
    Reader.Reads reader record.encode record := by
  simp only [encode, List.append_assoc]
  exact .bind (Reader.uint8_singleton _) <| .bind (Reader.uint8_singleton _) <|
    .bind (Reader.uint8_singleton _) <| .bind (Reader.uint8_singleton _) <|
    .bind (Reader.int32_ofInt32 _) <| .bind (Reader.uint64_ofUInt64 _) <|
    .bind (Reader.uint64_ofUInt64 _) <| .bind (Reader.uint32_ofUInt32 _) <|
    .bind (Reader.bytes_append formed.padding) <|
    .last (Reader.bytes_append formed.specific) _

/-- A record that was read stands in the bytes that were there. -/
theorem restores_reader : Reader.Restores reader encode := by
  -- Each field was read from the bytes in front of what is left for the next one.
  intro bytes rest value read
  obtain ⟨⟨kind, _⟩, readKind, read⟩ := Option.bind_eq_some_iff.mp read
  obtain ⟨⟨isNew, _⟩, readNew, read⟩ := Option.bind_eq_some_iff.mp read
  obtain ⟨⟨enabled, _⟩, readEnabled, read⟩ := Option.bind_eq_some_iff.mp read
  obtain ⟨⟨reserved, _⟩, readReserved, read⟩ := Option.bind_eq_some_iff.mp read
  obtain ⟨⟨mixId, _⟩, readMixId, read⟩ := Option.bind_eq_some_iff.mp read
  obtain ⟨⟨workBuffer, _⟩, readBuffer, read⟩ := Option.bind_eq_some_iff.mp read
  obtain ⟨⟨workBufferSize, _⟩, readSize, read⟩ := Option.bind_eq_some_iff.mp read
  obtain ⟨⟨order, _⟩, readOrder, read⟩ := Option.bind_eq_some_iff.mp read
  obtain ⟨⟨padding, _⟩, readPadding, read⟩ := Option.bind_eq_some_iff.mp read
  obtain ⟨⟨specific, _⟩, readSpecific, read⟩ := Option.bind_eq_some_iff.mp read
  obtain ⟨rfl, rfl⟩ := Prod.mk.inj (Option.some.inj read)
  rw [Reader.restores_uint8 readKind, Reader.restores_uint8 readNew,
    Reader.restores_uint8 readEnabled, Reader.restores_uint8 readReserved,
    Reader.restores_int32 readMixId, Reader.restores_uint64 readBuffer,
    Reader.restores_uint64 readSize, Reader.restores_uint32 readOrder,
    Reader.restores_bytes 4 readPadding, Reader.restores_bytes specificSize readSpecific, encode]
  simp only [List.append_assoc]

/-- A record that was read has all of its kind's bytes. -/
theorem specific_length {record : Record} {bytes rest : Bytes}
    (read : reader bytes = some (record, rest)) : record.specific.length = specificSize := by
  -- The bytes of the kind are what is read last.
  iterate 9 obtain ⟨_, -, read⟩ := Option.bind_eq_some_iff.mp read
  obtain ⟨⟨specific, behind⟩, last, read⟩ := Option.bind_eq_some_iff.mp read
  obtain ⟨rfl, -⟩ := Prod.mk.inj (Option.some.inj read)
  simp only [Reader.bytes] at last
  split at last
  · next full =>
    obtain ⟨rfl, -⟩ := Prod.mk.inj (Option.some.inj last)
    exact full
  · simp at last

/-- A record takes its own size. -/
theorem takes_reader : Reader.Takes reader recordSize :=
  Reader.takes_uint8.bind fun _ => Reader.takes_uint8.bind fun _ =>
    Reader.takes_uint8.bind fun _ => Reader.takes_uint8.bind fun _ =>
    Reader.takes_int32.bind fun _ => Reader.takes_uint64.bind fun _ =>
    Reader.takes_uint64.bind fun _ => Reader.takes_uint32.bind fun _ =>
    (Reader.takes_bytes 4).bind fun _ => (Reader.takes_bytes specificSize).bind fun _ => .pure _

/-- The record at a place is read from where its bytes begin. -/
theorem at?_eq (blob : Bytes) (index : Nat) :
    at? blob index = reader.front? (blob.drop (recordSize * index)) := takes_reader.front?_take _

/-- There is a record wherever there are enough bytes for one. -/
theorem exists_at? {blob : Bytes} {index : Nat} (enough : recordSize * (index + 1) ≤ blob.length) :
    ∃ record, at? blob index = some record := by
  -- The bytes behind the earlier records are enough for one more.
  have long : recordSize ≤ (blob.drop (recordSize * index)).length := by
    rw [List.length_drop, Nat.mul_succ] at *
    omega
  obtain ⟨record, read⟩ := takes_reader.found long
  exact ⟨record, by rw [at?_eq, Reader.front?_eq_some]; exact ⟨_, read⟩⟩

/-- A record that is found at a place has all of its kind's bytes. -/
theorem specific_length_of_at? {blob : Bytes} {index : Nat} {record : Record}
    (found : at? blob index = some record) : record.specific.length = specificSize := by
  obtain ⟨_, read⟩ := Reader.front?_eq_some.mp found
  exact specific_length read

/-- Blobs that agree as far as a number of records go have the same bytes at these places. -/
theorem chunk_congr {blob other : Bytes} {count index : Nat}
    (same : other.take (recordSize * count) = blob.take (recordSize * count))
    (inside : index < count) : chunk other index = chunk blob index := by
  -- The bytes of a record at one of these places end before those that differ.
  have part : recordSize * index + recordSize ≤ recordSize * count := by
    rw [← Nat.mul_succ]
    exact Nat.mul_le_mul_left _ inside
  have own (bytes : Bytes) :
      chunk (bytes.take (recordSize * count)) index = chunk bytes index := by
    rw [chunk, chunk, List.drop_take, List.take_take, Nat.min_eq_left (by omega)]
  rw [← own, same, own]

/-- Well-formed records take the size of one each. -/
theorem length_flatMap_encode {records : List Record}
    (formed : ∀ record ∈ records, record.WellFormed) :
    (records.flatMap encode).length = recordSize * records.length := by
  -- A well-formed record is encoded by as many bytes as every other.
  induction records with
  | nil => rfl
  | cons record records ih =>
    obtain ⟨own, others⟩ := List.forall_mem_cons.mp formed
    rw [List.flatMap_cons, List.length_append, ih others,
      takes_reader.length_eq (reads_encode own), List.length_cons, Nat.mul_succ, Nat.add_comm]

/-- Well-formed records one behind the other are found at their places, and nothing behind them. -/
theorem at?_flatMap_encode {records : List Record}
    (formed : ∀ record ∈ records, record.WellFormed) (index : Nat) :
    at? (records.flatMap encode) index = records[index]? := by
  induction records generalizing index with
  | nil =>
    rw [at?_eq, List.flatMap_nil, List.drop_nil, List.getElem?_nil]
    rfl
  | cons record records ih =>
    obtain ⟨own, others⟩ := List.forall_mem_cons.mp formed
    have size := takes_reader.length_eq (reads_encode own)
    rw [at?_eq, List.flatMap_cons]
    cases index with
    | zero => exact Reader.front?_eq_some.mpr ⟨_, reads_encode own _⟩
    | succ index =>
      -- The others are read from where the first record ends, one place further on.
      rw [Nat.mul_succ, Nat.add_comm, ← List.drop_drop, ← size, List.drop_left, size, ← at?_eq,
        ih others, List.getElem?_cons_succ]

end Record

end Effect

end Mixdown
