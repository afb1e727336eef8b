import Mixdown.Proofs.Interleave
import Mixdown.Proofs.Renderer.Session
import Mixdown.Proofs.Wave.Chunks

/-!
Rows that are written to a sound file are read back from it, as far as the shortest goes and within
sixteen bits, by every library that reads back the samples it writes.
-/

namespace Mixdown.Wave

/-- A sample within sixteen bits is its own nearest one. -/
theorem held_eq {sample : Int32} (above : -32768 ≤ sample) (below : sample ≤ 32767) :
    max (-32768) (min sample 32767) = sample := by
  -- Neither end of the scale is nearer than the sample itself.
  have least : min sample 32767 = sample := if_pos below
  rw [least]
  exact if_pos above

/-- The nearest sample of sixteen bits is held between the ends of their scale. -/
theorem toInt32_saturate (sample : Int32) :
    (saturate sample).toInt32 = max (-32768) (min sample 32767) := by
  have lowest : Int16.minValue.toInt = -32768 := by decide
  have highest : Int16.maxValue.toInt = 32767 := by decide
  have bottom : (-32768 : Int32).toInt = -32768 := by decide
  have top : (32767 : Int32).toInt = 32767 := by decide
  apply Int32.toInt_inj.mp
  rw [Int16.toInt_toInt32, saturate]
  -- Below and above the scale both sides are its end, and on the scale both are the sample.
  rcases Int.lt_or_le sample.toInt (-32768) with low | above
  · have least : min sample 32767 = sample := if_pos (Int32.le_iff_toInt_le.mpr (by omega))
    have most : max (-32768) sample = -32768 := if_neg (by rw [Int32.le_iff_toInt_le]; omega)
    rw [Int16.ofIntClamp, dif_neg (by omega), least, most, lowest, bottom]
  rcases Int.lt_or_le 32767 sample.toInt with high | below
  · have least : min sample 32767 = 32767 := if_neg (by rw [Int32.le_iff_toInt_le]; omega)
    rw [Int16.ofIntClamp, dif_pos (by omega), dif_neg (by omega), least, highest]
    decide
  · have held : max (-32768) (min sample 32767) = sample :=
      held_eq (Int32.le_iff_toInt_le.mpr (by omega)) (Int32.le_iff_toInt_le.mpr (by omega))
    rw [Int16.toInt_ofIntClamp (by omega) (by omega), held]

/-- A sample of sixteen bits is on their scale already. -/
theorem toSixteenBits_sixteen (sample : Int32) : toSixteenBits 16 sample = sample := by
  rw [toSixteenBits, if_neg (by decide)]
  exact Int32.shiftLeft_zero

/-- A library reads back the files that it writes in a format of sixteen-bit integers, up to a number
of samples. -/
def Library.Keeps (library : Library) (format : Format) (most : Nat) : Prop :=
  ∀ samples : List Int16, samples.length % format.channels.toNat = 0 → samples.length ≤ most →
    ∃ bytes file, library.write format samples = .ok bytes ∧ library.openFile bytes = .ok file ∧
      library.format file = format ∧ library.integers file = .ok (samples.map Int16.toInt32)

/-- Chunks keep the formats that their fields can tell, as long as the file's length can be told. -/
theorem Library.chunked_keeps {format : Format} (told : format.Told) :
    chunked.Keeps format mostSamples := by
  intro samples frames few
  -- The chunks' own reader finds what their writer has put down.
  obtain ⟨bytes, written, opened⟩ := openFile_write told frames few
  exact ⟨bytes, _, written, opened, rfl, integers_written rfl told.bits samples⟩

/-- All samples have a place on the scale of sixteen bits. -/
def WithinSixteenBits (rows : Rows) : Prop :=
  ∀ row ∈ rows, ∀ sample ∈ row, -32768 ≤ sample ∧ sample ≤ 32767

/-- What a sound file keeps of rows: each as far as the shortest goes, held within sixteen bits. -/
def kept (rows : Rows) : Rows :=
  rows.map fun row => (row.take rows.shortest).map fun sample => max (-32768) (min sample 32767)

/-- Rows of one length within sixteen bits are kept as they are. -/
theorem kept_eq {rows : Rows} (within : WithinSixteenBits rows)
    (even : ∀ row ∈ rows, row.length = rows.shortest) : kept rows = rows := by
  refine (List.map_congr_left fun row here => ?_).trans (List.map_id' rows)
  -- Nothing is cut off a row that is no longer than the shortest.
  rw [← even row here, List.take_length]
  refine (List.map_congr_left fun sample there => ?_).trans (List.map_id' row)
  obtain ⟨above, below⟩ := within row here sample there
  exact held_eq above below

/-- The interleaved samples of a file lead back to what is kept of the rows. -/
theorem deinterleave_saturated (rows : Rows) :
    Rows.deinterleave rows.length (((rows.interleave.map saturate).map Int16.toInt32).map
      (toSixteenBits 16)) = kept rows := by
  -- The steps from a sample to the one that is read are taken together, apart from its place.
  have each : (toSixteenBits 16 ∘ Int16.toInt32) ∘ saturate =
      fun sample => max (-32768) (min sample 32767) :=
    funext fun sample => (toSixteenBits_sixteen _).trans (toInt32_saturate sample)
  rw [List.map_map, List.map_map, each, Rows.deinterleave_map, Rows.deinterleave_interleave,
    List.map_map]
  rfl

/-- A file that a library keeps is decoded as what is kept of the rows, in the format it was given. -/
theorem Library.decode_eq {library : Library} {format : Format} (sixteen : format.bits = 16)
    (integer : format.kind = .integer) {rows : Rows} (some : rows ≠ [])
    (all : format.channels.toNat = rows.length) {most : Nat} (keeps : library.Keeps format most)
    (fits : rows.shortest * rows.length ≤ most) :
    ∃ bytes, library.write format (rows.interleave.map saturate) = .ok bytes ∧
      library.decode bytes = .ok ⟨format, kept rows⟩ := by
  -- Interleaving takes as much of each row as the shortest has.
  have length : (rows.interleave.map saturate).length = rows.shortest * rows.length := by
    rw [List.length_map, Rows.length_interleave]
  have frames : (rows.interleave.map saturate).length % format.channels.toNat = 0 := by
    rw [length, all, Nat.mul_mod_left]
  obtain ⟨bytes, file, written, opened, same, samples⟩ :=
    keeps (rows.interleave.map saturate) frames (length ▸ fits)
  -- There is a row, so that the file is not refused for having no channels.
  have positive : format.channels ≠ 0 := by
    intro none
    rw [none] at all
    exact some (List.eq_nil_of_length_eq_zero all.symm)
  refine ⟨bytes, written, ?_⟩
  simp only [decode, opened, ok_bind, same, if_neg positive, integer, samples, map_ok, sixteen, all]
  rw [← deinterleave_saturated]
  rfl

/-- Rows are read back from the chunks that are written for them, if there are any, the rate is not zero,
and the bytes of a frame, of a second and of the whole file fit the fields that tell them. -/
theorem decode_chunks {rate : UInt32} {rows : Rows} (some : rows ≠ []) (few : rows.length < 2 ^ 15)
    (moving : rate ≠ 0) (slow : rate.toNat * 2 * rows.length < 2 ^ 32)
    (fits : rows.shortest * rows.length ≤ mostSamples) :
    ∃ bytes, encode rate rows = .ok bytes ∧
      decode bytes = .ok ⟨⟨.ofNat rows.length, rate, 16, .integer⟩, kept rows⟩ := by
  have all : (UInt16.ofNat rows.length).toNat = rows.length :=
    UInt16.toNat_ofNat_of_lt' (by simp only [UInt16.size]; omega)
  -- The conditions are those under which the fields of the format can tell it.
  have told : Format.Told ⟨.ofNat rows.length, rate, 16, .integer⟩ := by
    refine ⟨rfl, rfl, fun none => some ?_, ?_, moving, ?_⟩
    · have zero : UInt16.ofNat rows.length = 0 := none
      rw [zero] at all
      exact List.eq_nil_of_length_eq_zero all.symm
    · simpa only [all] using few
    · simpa only [all] using slow
  exact Library.decode_eq rfl rfl some all (Library.chunked_keeps told) fits

/--
A library that reads back the interleaved samples and the format of the files it writes leads back to
rows that are written with it, if there is a row at all, sixteen bits count the rows, and the file holds
all samples up to the end of the shortest row. The sound has the rate and as many rows; each is read as
far as the shortest goes, every sample held within sixteen bits. Rows of one length within sixteen bits
are read back as they were, among them all such rows that a session renders.
-/
theorem Library.decode_encode {library : Library} {rate : UInt32} {rows : Rows} {most : Nat}
    (some : rows ≠ []) (few : rows.length ≤ 65535)
    (keeps : library.Keeps ⟨.ofNat rows.length, rate, 16, .integer⟩ most)
    (fits : rows.shortest * rows.length ≤ most) :
    ∃ bytes sound, library.encode rate rows = .ok bytes ∧ library.decode bytes = .ok sound ∧
      sound.format.rate = rate ∧ sound.format.channels.toNat = rows.length ∧
      sound.rows = rows.map (fun row => (row.take rows.shortest).map fun sample =>
        max (-32768) (min sample 32767)) ∧
      (WithinSixteenBits rows →
        ((∀ row ∈ rows, row.length = rows.shortest) → sound.rows = rows) ∧
        ∀ config renderer input meter after left,
          Renderer.Session config rows.length renderer → input.length = rows.length →
          renderer.render input meter = .ok (after, left, rows) → sound.rows = rows) := by
  have all : (UInt16.ofNat rows.length).toNat = rows.length :=
    UInt16.toNat_ofNat_of_lt' (by simp only [UInt16.size]; omega)
  obtain ⟨bytes, written, decoded⟩ := decode_eq rfl rfl some all keeps fits
  refine ⟨bytes, _, written, decoded, rfl, all, rfl, fun within =>
    ⟨kept_eq within, fun config renderer input meter after left session full run => ?_⟩⟩
  -- What is rendered has rows of one length, which is then that of the shortest.
  obtain ⟨-, even⟩ := session.render_even full run
  have least : rows.shortest = input.shortest := by
    obtain ⟨row, here⟩ := List.exists_mem_of_ne_nil rows some
    exact Rows.shortest_eq ⟨row, here, even row here⟩ fun other there => (even other there).ge
  exact kept_eq within fun row here => (even row here).trans least.symm

/-- Two rows, the second longer, with samples beyond both ends of the scale come back from chunks. -/
theorem Library.decode_encode_stereo :
    let rows : Rows := [[1, -2, 40000], [3, 4, -40000, 5]]
    (rows ≠ [] ∧ rows.length ≤ 65535 ∧
      chunked.Keeps ⟨.ofNat rows.length, 48000, 16, .integer⟩ mostSamples ∧
      rows.shortest * rows.length ≤ mostSamples) ∧
    ∃ bytes sound, Wave.encode 48000 rows = .ok bytes ∧ Wave.decode bytes = .ok sound ∧
      sound.format.rate = 48000 ∧ sound.format.channels.toNat = 2 ∧
      sound.rows = [[1, -2, 32767], [3, 4, -32768]] := by
  intro rows
  have some : rows ≠ [] := List.cons_ne_nil _ _
  have keeps : chunked.Keeps ⟨.ofNat rows.length, 48000, 16, .integer⟩ mostSamples :=
    chunked_keeps ⟨rfl, rfl, by decide, by decide, by decide, by decide⟩
  obtain ⟨bytes, sound, written, decoded, rate, channels, held, -⟩ :=
    Library.decode_encode some (by decide) keeps (by decide)
  exact ⟨⟨some, by decide, keeps, by decide⟩, bytes, sound, written, decoded, rate, channels,
    held.trans (by decide)⟩

end Mixdown.Wave
