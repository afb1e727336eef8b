import Mathlib.Tactic.IntervalCases
import Mixdown.Config.Stage
import Mixdown.Effect.Rack
import Mixdown.Proofs.Effect.Record
import Mixdown.Proofs.Effect.Slot

/-! The record of a stage sets up a slot that does in place what the stage describes. -/

namespace Mixdown

open Effect (Slot Version Record Kind)

/-- Among the first indices are those below their count only. -/
theorem val_lt_of_mem_take {count : Nat} {index : Fin n}
    (here : index ∈ (List.finRange n).take count) : index.val < count := by
  obtain ⟨place, inside, rfl⟩ := List.mem_iff_getElem.mp here
  simp only [List.length_take] at inside
  simp only [List.getElem_take, List.getElem_finRange, Fin.val_cast]
  omega

namespace Effect

variable {version : Version} {map : AddressMap} {address : Option Nat}

/-- A biquad slot takes valid parameters from their own record, and is enabled. -/
theorem BiquadSlot.receive_create (slot : BiquadSlot) (order : UInt32)
    {parameters : BiquadParameters} (valid : parameters.isValid version) :
    slot.receive (.create .biquad order parameters.encode) version =
      { slot with base := { slot.base with mixId := 0, order, enabled := true }, parameters } := by
  -- The padding behind the parameters is not read.
  have read := (BiquadParameters.reads_encode parameters).front?_padTo specificSize
  simp only [receive, Record.create, read, valid]
  rfl

/-- A limiter slot takes parameters from their own record, and is enabled. -/
theorem LimiterSlot.receive_create (answers : map.locate 0 0 = .ok address) (slot : LimiterSlot)
    (order : UInt32) (parameters : Limiter.Parameters) :
    slot.receive (.create .limiter order parameters.encode) map =
      .ok { slot with
            base := { slot.base with
                      mixId := 0, order, enabled := true, workBuffer := address.getD 0 }
            parameters } := by
  have read := (Limiter.Parameters.reads_encode parameters).front?_padTo specificSize
  simp only [receive, Record.create, read, Base.mapWorkBuffer, UInt64.toNat_zero, answers, ok_bind]
  rfl

/-- A compressor slot takes parameters from their own second record, and is enabled. -/
theorem CompressorSlot.receive_create (answers : map.locate 0 0 = .ok address)
    (slot : CompressorSlot) (order : UInt32) (parameters : Compressor.Parameters) :
    slot.receive (.create .compressor order parameters.encode) .second map =
      .ok { slot with
            base := { slot.base with
                      mixId := 0, order, enabled := true, workBuffer := address.getD 0 }
            parameters } := by
  have read := (Compressor.Parameters.reads_encode parameters).front?_padTo specificSize
  simp only [receive, Record.create, read, Base.mapWorkBuffer, UInt64.toNat_zero, answers, ok_bind]
  rfl

end Effect

namespace Stage

/-- What the slot of a stage keeps besides its parameters. -/
def base (order : Nat) : Effect.Base := ⟨0, UInt32.ofNat order, true, .new, 0⟩

/-- The slot that a stage describes; first records have no room for compressors. -/
def slot (stage : Stage) (version : Version) (channels order : Nat) : Slot :=
  match stage, version with
  | .biquad coefficients, _ =>
    .biquad ⟨base order, biquadParameters coefficients channels, .replicate _ none⟩
  | .limiter stage, _ => .limiter ⟨base order, limiterParameters stage channels, none⟩
  | .compressor _, .first => .compressor .new
  | .compressor stage, .second => .compressor ⟨base order, compressorParameters stage channels, none⟩

variable {channels : Nat}

/-- The buffer of a channel is the one of its own number. -/
theorem buffers_named (channel : Fin maxChannels) (used : channel.val < channels) :
    Names channels (buffers channels)[channel].toInt16 := by
  -- Six numbers of channels are compared one by one.
  have number : ∀ channel : Fin maxChannels, (Int8.ofNat channel.val).toInt16.toInt = channel.val := by
    decide
  simp only [buffers, Fin.getElem_fin, Vector.getElem_ofFn, used, if_true, Names, number]
  omega

/-- The buffers are numbered from zero up to the channels, and zero behind them. -/
theorem buffers_toInt (channels : Nat) (channel : Fin maxChannels) :
    ((buffers channels).get channel).toInt = if channel.val < channels then channel.val else 0 := by
  have number : ∀ channel : Fin maxChannels, (Int8.ofNat channel.val).toInt = channel.val := by
    decide
  have own : (buffers channels).get channel =
      if channel.val < channels then Int8.ofNat channel.val else 0 :=
    Vector.getElem_ofFn channel.isLt
  -- Buffers of channels that are not in use are numbered zero.
  rw [own]
  split
  · exact number channel
  · rfl

/-- The ways of the first channels lead between the first buffers. -/
theorem buffers_among {count : Nat} (few : count ≤ channels) :
    Among channels count ((buffers channels).map Int8.toInt16)
      ((buffers channels).map Int8.toInt16) := by
  intro way here
  obtain ⟨index, inside, rfl⟩ := List.mem_iff_getElem.mp here
  simp only [List.length_take, List.length_zip, Vector.length_toList] at inside
  -- Inputs and outputs are the same vector, so that one bound is enough.
  have named := buffers_named ⟨index, by omega⟩ (show index < channels by omega)
  simpa using named

/-- The parameters of a biquad stage are valid in records of both layouts. -/
theorem biquadParameters_isValid (coefficients : Biquad.Coefficients)
    (few : channels ≤ maxChannels) (version : Version) :
    (biquadParameters coefficients channels).isValid version := by
  -- There are few channels, and for each number of them the check can be carried out.
  simp only [maxChannels] at few
  cases version <;> interval_cases channels <;> rfl

/-- The parameters of a stage fit into a record. -/
theorem record_wellFormed (stage : Stage) (channels order : Nat) :
    (stage.record channels order).WellFormed := by
  -- What is read back whole is as long as what its reader takes.
  cases stage with
  | biquad coefficients =>
    refine Record.create_wellFormed .biquad _ ?_
    rw [Effect.BiquadParameters.takes_reader.length_eq (Effect.BiquadParameters.reads_encode _)]
    decide
  | limiter stage =>
    refine Record.create_wellFormed .limiter _ ?_
    rw [Limiter.Parameters.takes_reader.length_eq (Limiter.Parameters.reads_encode _)]
    decide
  | compressor stage =>
    refine Record.create_wellFormed .compressor _ ?_
    rw [Compressor.Parameters.takes_reader.length_eq (Compressor.Parameters.reads_encode _)]
    decide

/-- The record of a stage sets up the slot that the stage describes. -/
theorem receive_record (stage : Stage) (version : Version) (few : channels ≤ maxChannels)
    (order : Nat) : Slot.empty.receive (stage.record channels order) version .identity =
      .ok (stage.slot version channels order) := by
  -- A stage's record asks for no work buffer.
  have answers : AddressMap.identity.locate 0 0 = .ok none := rfl
  cases stage with
  | biquad coefficients =>
    -- The slot stays enabled because the parameters that it reads back are valid.
    have valid := biquadParameters_isValid coefficients few version
    exact congrArg (fun slot => Except.ok (Slot.biquad slot)) <|
      Effect.BiquadSlot.receive_create .new (UInt32.ofNat order) valid
  | limiter stage =>
    exact congrArg (Slot.limiter <$> ·) <| Effect.LimiterSlot.receive_create answers .new
      (UInt32.ofNat order) (limiterParameters stage channels)
  | compressor stage =>
    cases version with
    -- Nothing of a first record is taken, so the slot is the one that no record has described.
    | first => rfl
    | second =>
      exact congrArg (Slot.compressor <$> ·) <| Effect.CompressorSlot.receive_create answers .new
        (UInt32.ofNat order) (compressorParameters stage channels)

/-- The slot of a stage works on the session's channels in place. -/
theorem slot_within (stage : Stage) (version : Version) (few : channels ≤ maxChannels)
    (order : Nat) : (stage.slot version channels order).Within channels := by
  -- The number of channels is small enough for the narrowest field that counts them.
  have small : channels < 2 ^ 7 := by
    simp only [maxChannels] at few
    omega
  cases stage with
  | biquad coefficients =>
    intro channel used
    have inside := val_lt_of_mem_take used
    rw [show (biquadParameters coefficients channels).channels = Int8.ofNat channels from rfl,
      Int8.toInt_ofNat_of_lt small, Int.toNat_natCast] at inside
    exact ⟨buffers_named channel inside, buffers_named channel inside⟩
  | limiter stage =>
    refine buffers_among ((Nat.min_le_left _ _).trans ?_)
    exact (UInt16.toNat_ofNat').trans_le (Nat.mod_le _ _)
  | compressor stage =>
    cases version with
    | first =>
      -- A compressor without parameters has no channels.
      intro way here
      cases here
    | second =>
      refine buffers_among ((Nat.min_le_left _ _).trans ?_)
      rw [show (compressorParameters stage channels).channels = Int16.ofNat channels from rfl,
        Int16.toInt_ofNat_of_lt (by omega), Int.toNat_natCast]

/-- No slot has places for its states before it has run. -/
theorem slot_places (stage : Stage) (version : Version) (channels order : Nat) :
    (stage.slot version channels order).places = [] := by
  cases stage with
  | biquad coefficients => rfl
  | limiter stage => rfl
  | compressor stage => cases version <;> rfl

end Stage

end Mixdown
