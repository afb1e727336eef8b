import Mixdown.Proofs.Bytes
import Mixdown.Wave

/-! The chunks that are written for samples of sixteen bits are read back as they were given. -/

namespace Mixdown.Wave

namespace Input

/-- Reading goes on behind what a reader finds. -/
theorem take_bind {reader : Reader α} {front : Bytes} {value : α} (reads : reader.Reads front value)
    (next : α → Input β) (rest : Bytes) : (take reader >>= next) (front ++ rest) = next value rest := by
  change take reader (front ++ rest) >>= _ = _
  rw [take, reads]
  rfl

/-- Reading goes on in spite of a condition that holds. -/
theorem require_bind {condition : Bool} (holds : condition = true) (cause : WaveError)
    (next : Unit → Input β) : (require condition cause >>= next) = next () := by
  rw [require, if_pos holds]
  rfl

/-- All bytes that are left can be looked at. -/
theorem get_bind (next : Bytes → Input β) (bytes : Bytes) :
    (get >>= next : Input β) bytes = next bytes bytes := rfl

/-- Reading goes on behind what was read before. -/
theorem bind_eq {input : Input α} {bytes rest : Bytes} {value : α}
    (found : input bytes = .ok (value, rest)) (next : α → Input β) :
    (input >>= next) bytes = next value rest := by
  change input bytes >>= _ = _
  rw [found]
  rfl

end Input

/-- A format of sixteen-bit integers that a format chunk can tell, since the bytes of a frame and those
of a second fit their fields. -/
structure Format.Told (format : Format) : Prop where
  integer : format.kind = .integer
  bits : format.bits = 16
  some : format.channels ≠ 0
  few : format.channels.toNat < 2 ^ 15
  moving : format.rate ≠ 0
  slow : format.rate.toNat * 2 * format.channels.toNat < 2 ^ 32

/-- The channels of a format are counted from one. -/
theorem Format.Told.channels_pos {format : Format} (told : format.Told) :
    0 < format.channels.toNat :=
  Nat.pos_of_ne_zero fun none => told.some (UInt16.toNat_inj.mp none)

/-- Time passes from sample to sample. -/
theorem Format.Told.rate_pos {format : Format} (told : format.Told) : 0 < format.rate.toNat :=
  Nat.pos_of_ne_zero fun still => told.moving (UInt32.toNat_inj.mp still)

/-- A number that fits four bytes is checked as it is. -/
theorem checkedLength_eq {value : Nat} (fits : value < 2 ^ 32) :
    checkedLength value = .ok (UInt32.ofNat value) := if_pos fits

/-- A number that fits four bytes is told by them. -/
theorem toNat_ofNat32 {value : Nat} (fits : value < 2 ^ 32) : (UInt32.ofNat value).toNat = value :=
  UInt32.toNat_ofNat_of_lt' fits

variable {format : Format}

/-- The fields of the format chunk that all encodings share, behind the encoding. -/
def Format.fields (format : Format) : Bytes :=
  .ofUInt16 format.channels ++ (.ofUInt32 format.rate ++
    (.ofUInt32 (.ofNat (format.rate.toNat * 2 * format.channels.toNat)) ++
      (.ofUInt16 (.ofNat (2 * format.channels.toNat)) ++ .ofUInt16 format.bits)))

/-- The fields of a format are read back behind an encoding, up to what is left to that encoding. -/
theorem readFormat_fields (told : format.Told) {length : Nat} (long : 16 ≤ length)
    (encoding : UInt16) (rest : Bytes) :
    readFormat length (.ofUInt16 encoding ++ (format.fields ++ rest)) =
      (if encoding = integerEncoding then integerFormat ⟨format, 2⟩ length
      else if encoding = floatEncoding then floatFormat ⟨format, 2⟩ length
      else if encoding = extendedEncoding then extendedFormat ⟨format, 2⟩ length
      else throw .unsupported) rest := by
  have positive := told.channels_pos
  -- Numbers of bytes are told along with those of samples, and fit their fields.
  obtain ⟨integer, bits, some, few, moving, slow⟩ := told
  obtain ⟨channels, rate, _, _⟩ := format
  simp only at integer bits some few moving slow positive
  subst integer bits
  have frame : (UInt16.ofNat (2 * channels.toNat)).toNat = 2 * channels.toNat :=
    UInt16.toNat_ofNat_of_lt' (by simp only [UInt16.size]; omega)
  have width : 2 * channels.toNat / channels.toNat = 2 := Nat.mul_div_cancel 2 positive
  have speed : (UInt32.ofNat (rate.toNat * 2 * channels.toNat)).toNat =
      2 * channels.toNat * rate.toNat := by
    rw [toNat_ofNat32 slow, Nat.mul_assoc, Nat.mul_comm]
  -- The conditions on the fields are met one after the other as the fields are read.
  simp only [readFormat, Format.fields, List.append_assoc]
  rw [Input.require_bind (decide_eq_true long), Input.take_bind (Reader.uint16_ofUInt16 _),
    Input.take_bind (Reader.uint16_ofUInt16 _), Input.take_bind (Reader.uint32_ofUInt32 _),
    Input.take_bind (Reader.uint32_ofUInt32 _), Input.take_bind (Reader.uint16_ofUInt16 _),
    Input.take_bind (Reader.uint16_ofUInt16 _), Input.require_bind (decide_eq_true some), frame, width,
    Input.require_bind (by decide), Input.require_bind (decide_eq_true speed),
    Input.require_bind (by decide)]

/-- The plain encoding leaves the format as its fields tell it. -/
theorem readFormat_plain (told : format.Told) (rest : Bytes) :
    readFormat 16 (.ofUInt16 integerEncoding ++ (format.fields ++ rest)) =
      .ok (⟨format, 2⟩, rest) := by
  rw [readFormat_fields told (by decide), if_pos rfl, integerFormat, Input.require_bind (by decide)]
  rfl

/-- The extended encoding tells the bits and the kind of the samples once more. -/
theorem readFormat_extended (told : format.Told) (mask : UInt32) (rest : Bytes) :
    readFormat 40 (.ofUInt16 extendedEncoding ++ (format.fields ++ (.ofUInt16 extensionSize ++
      (.ofUInt16 format.bits ++ (.ofUInt32 mask ++ (integerIdentifier ++ rest)))))) =
      .ok (⟨format, 2⟩, rest) := by
  -- Bits that were told as zero would stand for all bits of a sample.
  have bits : format.bits ≠ 0 := by
    rw [told.bits]
    decide
  rw [readFormat_fields told (by decide), if_neg (by decide), if_neg (by decide), if_pos rfl,
    extendedFormat, Input.require_bind (by decide), Input.take_bind (Reader.uint16_ofUInt16 _),
    Input.require_bind (by decide), Input.take_bind (Reader.uint16_ofUInt16 _),
    Input.take_bind (Reader.uint32_ofUInt32 _), Input.take_bind (Reader.bytes_append (by decide))]
  simp only [if_neg bits, if_pos]
  rfl

/-- A format chunk is written so that its body is read back as the format. -/
theorem formatChunk_eq (told : format.Told) :
    ∃ (length : UInt32) (body : Bytes),
      formatChunk format = .ok (.ofUInt32 formatTag ++ (.ofUInt32 length ++ body)) ∧
      body.length ≤ 40 ∧ ∀ rest, readFormat length.toNat (body ++ rest) = .ok (⟨format, 2⟩, rest) := by
  -- The speed and the width of a frame fit their fields, so that neither is refused.
  have frame : format.rate.toNat * 2 * format.channels.toNat / format.rate.toNat =
      2 * format.channels.toNat := by
    rw [Nat.mul_assoc, Nat.mul_div_cancel_left _ told.rate_pos]
  have perChannel : format.rate.toNat * 2 < 2 ^ 32 :=
    Nat.lt_of_le_of_lt (Nat.le_mul_of_pos_right _ told.channels_pos) told.slow
  simp only [formatChunk, sampleWidth, checkedLength_eq perChannel, ok_bind, toNat_ofNat32 perChannel,
    checkedLength_eq told.slow, toNat_ofNat32 told.slow, if_neg told.moving,
    frame]
  -- The plain encoding is written for few channels, and the extended one for more.
  by_cases plain : format.channels.toNat ≤ plainChannels
  · refine ⟨16, .ofUInt16 integerEncoding ++ format.fields, ?_, ?_, fun rest => ?_⟩
    · simp only [if_pos plain, Format.fields, List.append_assoc]
      rfl
    · exact show 16 ≤ 40 by decide
    · rw [List.append_assoc]
      exact readFormat_plain told rest
  · refine ⟨40, .ofUInt16 extendedEncoding ++ (format.fields ++ (.ofUInt16 extensionSize ++
      (.ofUInt16 format.bits ++ (.ofUInt32 (speakerMask format.channels.toNat) ++
        integerIdentifier)))), ?_, ?_, fun rest => ?_⟩
    · simp only [if_neg plain, Format.fields, List.append_assoc]
      rfl
    · exact show 40 ≤ 40 by decide
    · simp only [List.append_assoc]
      exact readFormat_extended told _ rest

/-- A format chunk is passed, and the samples are looked for behind it in the format that it tells. -/
theorem findSamples_format {length : UInt32} {body : Bytes} {found : StoredFormat}
    (reads : ∀ rest, readFormat length.toNat (body ++ rest) = .ok (found, rest)) (most : Nat)
    (seen : Option StoredFormat) (rest : Bytes) :
    findSamples (most + 1) seen (.ofUInt32 formatTag ++ (.ofUInt32 length ++ (body ++ rest))) =
      findSamples most (some found) rest := by
  -- The tag is that of a format chunk, whose body leaves all that is behind it.
  rw [findSamples, Input.take_bind (Reader.uint32_ofUInt32 _), bind_map_left,
    Input.take_bind (Reader.uint32_ofUInt32 _), if_pos rfl]
  change readFormat length.toNat (body ++ rest) >>= _ = _
  rw [reads]
  rfl

/-- The samples are found behind the tag of their chunk. -/
theorem findSamples_data (length : UInt32) (most : Nat) (found : StoredFormat) (rest : Bytes) :
    findSamples (most + 1) (some found) (.ofUInt32 dataTag ++ (.ofUInt32 length ++ rest)) =
      .ok ((found, length.toNat), rest) := by
  rw [findSamples, Input.take_bind (Reader.uint32_ofUInt32 _), bind_map_left,
    Input.take_bind (Reader.uint32_ofUInt32 _), if_neg (by decide), if_neg (by decide), if_pos rfl]
  rfl

/-- The most samples that fit a file behind the longest header. -/
def mostSamples : Nat := (2 ^ 32 - 1 - 60) / sampleWidth

/-- The bytes of the samples fit a file together with the longest header. -/
theorem room_of_few {count : Nat} (few : count ≤ mostSamples) : 60 + count * sampleWidth < 2 ^ 32 := by
  simp only [mostSamples, sampleWidth] at few ⊢
  omega

/-- Samples are written behind a header whose lengths count all of them. -/
theorem write_eq (told : format.Told) {samples : List Int16}
    (frames : samples.length % format.channels.toNat = 0) (few : samples.length ≤ mostSamples) :
    ∃ (whole length : UInt32) (body : Bytes),
      write format samples = .ok (.ofUInt32 fileTag ++ (.ofUInt32 whole ++ (.ofUInt32 soundTag ++
        (.ofUInt32 formatTag ++ (.ofUInt32 length ++ (body ++ (.ofUInt32 dataTag ++
          (.ofUInt32 (.ofNat (samples.length * sampleWidth)) ++
            samples.flatMap Bytes.ofInt16)))))))) ∧
      ∀ rest, readFormat length.toNat (body ++ rest) = .ok (⟨format, 2⟩, rest) := by
  obtain ⟨length, body, chunk, short, reads⟩ := formatChunk_eq told
  have sixteen : ¬(format.kind ≠ .integer ∨ format.bits ≠ 16) := by
    simp [told.integer, told.bits]
  -- None of the lengths in the header is cut off, as there is room for the longest header.
  have room := room_of_few few
  have data : samples.length * sampleWidth < 2 ^ 32 := by omega
  have header : (Bytes.ofUInt32 formatTag ++ (.ofUInt32 length ++ body)).length = 8 + body.length := by
    simp only [List.length_append, Bytes.ofUInt32, List.length_cons, List.length_nil]
    omega
  have file : 4 + (8 + body.length) + 8 + samples.length * sampleWidth < 2 ^ 32 := by omega
  refine ⟨.ofNat (4 + (8 + body.length) + 8 + samples.length * sampleWidth), length, body, ?_, reads⟩
  simp only [write, if_neg sixteen, chunk, lift_ok, ok_bind, checkedLength_eq data, if_neg told.some,
    frames, header, toNat_ofNat32 data, checkedLength_eq file, List.append_assoc]
  rfl

/-- A file is opened when whole frames are found in its chunks. -/
theorem openFile_eq {chunks rest : Bytes} {stored : StoredFormat} {count : Nat}
    (found : findSamples (chunks.length + 1) none chunks = .ok ((stored, count * stored.width), rest))
    (wide : 0 < stored.width) (frames : count % stored.channels.toNat = 0) (whole : UInt32) :
    openFile (.ofUInt32 fileTag ++ (.ofUInt32 whole ++ (.ofUInt32 soundTag ++ chunks))) =
      .ok ⟨stored, count, rest⟩ := by
  -- The length of the samples' chunk is a whole number of samples.
  have even : count * stored.width % stored.width = 0 := Nat.mul_mod_left count stored.width
  have all : count * stored.width / stored.width = count := Nat.mul_div_cancel count wide
  rw [openFile, readHeader, Input.take_bind (Reader.uint32_ofUInt32 _), Input.require_bind (by decide),
    Input.take_bind (Reader.uint32_ofUInt32 _), Input.take_bind (Reader.uint32_ofUInt32 _),
    Input.require_bind (by decide), Input.get_bind, Input.bind_eq found]
  simp only [all]
  rw [Input.require_bind (decide_eq_true even), Input.require_bind (decide_eq_true frames)]
  rfl

/-- A file that is written is opened as a recording of all its samples. -/
theorem openFile_write (told : format.Told) {samples : List Int16}
    (frames : samples.length % format.channels.toNat = 0) (few : samples.length ≤ mostSamples) :
    ∃ bytes, write format samples = .ok bytes ∧
      openFile bytes = .ok ⟨⟨format, 2⟩, samples.length, samples.flatMap Bytes.ofInt16⟩ := by
  obtain ⟨whole, length, body, written, reads⟩ := write_eq told frames few
  have room := room_of_few few
  have data : samples.length * sampleWidth < 2 ^ 32 := by omega
  refine ⟨_, written, openFile_eq ?_ Nat.two_pos frames whole⟩
  -- The chunk behind that of the format is looked at, since there are bytes enough for two.
  rw [findSamples_format reads]
  exact (findSamples_data _ _ _ _).trans (by rw [toNat_ofNat32 data, sampleWidth])

/-- Samples that are written one behind the other are read in the same order. -/
theorem samplesFrom_flatMap {reader : Reader α} {write : β → Bytes} {value : β → α}
    (one : ∀ item, reader.Reads (write item) (value item)) (items : List β) (rest : Bytes)
    (seen : List α) :
    samplesFrom reader items.length (items.flatMap write ++ rest) seen =
      .ok (seen.reverse ++ items.map value) := by
  -- What has been read stands in front, the latest first.
  induction items generalizing seen with
  | nil => rw [List.length_nil, samplesFrom, List.map_nil, List.append_nil]
  | cons item items ih =>
    rw [List.length_cons, List.flatMap_cons, List.append_assoc, samplesFrom, one]
    simp only [ih, List.reverse_cons, List.append_assoc, List.singleton_append, List.map_cons]

/-- The samples of a recording that is written are those that were given. -/
theorem integers_written {stored : StoredFormat} (width : stored.width = 2) (bits : stored.bits = 16)
    (samples : List Int16) :
    Recording.integers ⟨stored, samples.length, samples.flatMap Bytes.ofInt16⟩ =
      .ok (samples.map Int16.toInt32) := by
  have reader : integerReader stored = .ok (Int16.toInt32 <$> Reader.int16) := by
    rw [integerReader, width, bits]
    rfl
  -- Two bytes are read as one sample and widened.
  have one (sample : Int16) :
      (Int16.toInt32 <$> Reader.int16).Reads (Bytes.ofInt16 sample) sample.toInt32 := by
    intro rest
    rw [Reader.map_apply, Reader.int16_ofInt16, Option.map_some]
  have all := samplesFrom_flatMap one samples [] []
  rw [List.append_nil] at all
  simp only [Recording.integers, Recording.samples, reader, ok_bind, all]
  -- Where there are no samples the reader is not asked for.
  split
  · next none =>
    rw [List.length_eq_zero_iff.mp none]
    rfl
  · rfl

end Mixdown.Wave
