import Mixdown.Config
import Mixdown.Proofs.Splitter.Section

/-! The section of a configuration is well-formed and leads every channel to its own destination. -/

namespace Mixdown.Config

open Splitter (Section Listing)

/-- The listing of the first splitter, which leads to a destination for each channel. -/
def listing (channels : Nat) : Listing where
  record := ⟨Splitter.splitterMagic, 0, UInt32.ofNat defaultRate, UInt32.ofNat channels⟩
  ids := (List.range channels).map UInt32.ofNat

/-- The records of a configuration's section. -/
def sent (config : Config) (channels : Nat) : Section where
  header := ⟨Splitter.headerMagic, 1, Int32.ofNat channels, .zeros 0x14⟩
  listings := [listing channels]
  settings := (List.range channels).map config.destinationRecord

variable (config : Config) {channels : Nat}

/-- The bytes of a configuration's section are those of its records and zeros behind them. -/
theorem splitterSection_eq (positive : 0 < channels) (few : channels ≤ maxChannels) :
    config.splitterSection channels =
      .ok ((config.sent channels).encode.padTo (config.sent channels).length) := by
  have counted : checkChannels channels = .ok () := if_pos ⟨positive, few⟩
  -- The listing and the records are written one channel after the other, as the program does.
  have bytes : (config.sent channels).encode = (config.sent channels).header.encode ++
      (listing channels).record.encode ++
        ((List.range channels).flatMap fun id => Bytes.ofUInt32 (UInt32.ofNat id)) ++
        ((List.range channels).flatMap fun channel => (config.destinationRecord channel).encode) := by
    simp only [Section.encode, sent, List.flatMap_cons, List.flatMap_nil, List.append_nil,
      Listing.encode, listing, List.flatMap_map, List.append_assoc]
  simp only [splitterSection, counted, ok_bind, pure_eq_ok, Section.length, bytes]
  rfl

/-- A configuration's section is well-formed for one splitter and a destination per channel. -/
theorem sent_wellFormed (few : channels ≤ maxChannels) {destinations : Nat}
    (enough : channels ≤ destinations) :
    (config.sent channels).WellFormed 1 destinations config.revision.hasFilterRecords := by
  -- Channels are few, so that signed numbers count them.
  have small : channels < 2 ^ 31 := by
    simp only [maxChannels] at few
    omega
  refine ⟨rfl, rfl, rfl, ?_, ?_, ?_⟩
  · simp [sent, Int32.toInt_ofNat_of_lt small]
  · -- The one listing names the first splitter and counts one destination for each channel.
    intro listing here
    obtain rfl := List.mem_singleton.mp here
    refine ⟨rfl, Int.le_refl 0, Int.zero_lt_one, ?_⟩
    simp only [Config.listing, List.length_map, List.length_range]
    exact UInt32.toNat_ofNat_of_lt' (by simp only [UInt32.size]; omega)
  · -- A record carries filters exactly when the revision's records do.
    intro record here
    obtain ⟨channel, used, rfl⟩ := List.mem_map.mp here
    have used := List.mem_range.mp used
    have id : (config.destinationRecord channel).id.toInt = channel :=
      Int32.toInt_ofNat_of_lt (by omega)
    refine ⟨rfl, by omega, by omega, ?_, ?_⟩
    · simp only [destinationRecord]
      split <;> simp_all
    · simp [destinationRecord, Bytes.zeros]

/-- A configuration's section is short. -/
theorem sent_length (few : channels ≤ maxChannels) :
    (config.sent channels).encode.length ≤ (config.sent channels).length ∧
      (config.sent channels).length < addressSpace / 2 := by
  have formed : (config.sent channels).WellFormed 1 channels config.revision.hasFilterRecords :=
    sent_wellFormed config few (Nat.le_refl channels)
  have count : (UInt32.ofNat channels).toNat = channels :=
    UInt32.toNat_ofNat_of_lt' (by simp only [UInt32.size, maxChannels] at few ⊢; omega)
  -- Records with filters are the longest, and even as many as there may be take little room.
  have record : Splitter.DestinationRecord.size config.revision.hasFilterRecords ≤ 0xA8 := by
    cases config.revision.hasFilterRecords <;> decide
  have records : channels * Splitter.DestinationRecord.size config.revision.hasFilterRecords ≤
      maxChannels * 0xA8 := Nat.mul_le_mul few record
  have bytes : (config.sent channels).encode.length = Splitter.Header.size +
      (Splitter.SplitterRecord.size + channels * Splitter.identifierSize) +
        channels * Splitter.DestinationRecord.size config.revision.hasFilterRecords := by
    rw [formed.readable.length_eq]
    simp [sent, listing, Splitter.SplitterRecord.span, count]
  simp only [Section.length, Splitter.sectionAlignment]
  simp only [Splitter.Header.size, Splitter.SplitterRecord.size, Splitter.identifierSize,
    maxChannels, addressSpace, UInt64.size] at *
  omega

end Mixdown.Config
