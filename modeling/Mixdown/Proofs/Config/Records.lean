import Mixdown.Config
import Mixdown.Proofs.Config.Stage
import Mixdown.Proofs.Effect.Bay

/-! Stages pass through the records of a guest into the slots of a rack, whatever stood there. -/

namespace Mixdown

open Effect (Slot Version Record Kind Rack)

/-- The buffers that a slot reads and writes, unless it is empty. -/
def Effect.Slot.routing? : Slot → Option (Vector Int8 maxChannels × Vector Int8 maxChannels)
  | .empty => none
  | .biquad slot => some (slot.parameters.inputs, slot.parameters.outputs)
  | .limiter slot => some (slot.parameters.inputs, slot.parameters.outputs)
  | .compressor slot => some (slot.parameters.inputs, slot.parameters.outputs)

namespace Stage

/-- The kind of effect of a stage. -/
def kind : Stage → Kind
  | .biquad _ => .biquad
  | .limiter _ => .limiter
  | .compressor _ => .compressor

/-- First records have no room for compressors. -/
def isIgnored (stage : Stage) (version : Version) : Bool :=
  stage.kind = .compressor ∧ version = .first

/-- What a biquad stage sets on a number of channels. -/
structure SetsFilter (coefficients : Biquad.Coefficients) (count : Nat)
    (parameters : Effect.BiquadParameters) : Prop where
  coefficients : parameters.coefficients = coefficients
  channels : parameters.channels.toInt = count
  phase : parameters.phase = 0

/-- What a limiter stage sets on a number of channels; fields that it has no say in are zero. -/
structure SetsLimiter (stage : LimiterStage) (count : Nat) (parameters : Limiter.Parameters) :
    Prop where
  channels : parameters.channels.toNat = count
  rate : parameters.rate.toInt = 48000
  attack : parameters.attack = stage.attackTime
  release : parameters.release = stage.releaseTime
  threshold : parameters.threshold = stage.threshold
  makeup : parameters.makeup = stage.makeupGain
  ratio : parameters.ratio = stage.ratio
  enabled : parameters.enabled = 1
  phase : parameters.phase = 0
  padding : parameters.padding = 0
  reserved : parameters.reserved = .replicate _ 0

/-- What a compressor stage sets on a number of channels; fields that it has no say in are zero. -/
structure SetsCompressor (stage : CompressorStage) (count : Nat)
    (parameters : Compressor.Parameters) : Prop where
  channelsMax : parameters.channelsMax.toInt = 6
  channels : parameters.channels.toInt = count
  rate : parameters.rate.toInt = 48000
  threshold : parameters.threshold = stage.threshold
  ratio : parameters.ratio = stage.ratio
  /-- Whole milliseconds, which are kept beside the shares of a step that are worked with. -/
  attackTime : parameters.attackTime = stage.attackTime.toSample
  releaseTime : parameters.releaseTime = stage.releaseTime.toSample
  detector : parameters.detector = 1 - (-1000 / (stage.detectorTime * .ofNat 48000)).exp
  release : parameters.release = 1 - (-1000 / (stage.releaseTime * .ofNat 48000)).exp
  attack : parameters.attack = 1 - (-1000 / (stage.attackTime * .ofNat 48000)).exp
  outputGain : parameters.outputGain = stage.outputGain
  makeup : parameters.makeup = if stage.makeupGain then 1 else 0
  phase : parameters.phase = 0
  statistics : parameters.statistics = 0
  statisticsReset : parameters.statisticsReset = 0
  reserved : parameters.reserved = .replicate _ 0

/-- A slot holds what a stage sets, field by field. -/
def Holds (count : Nat) : Stage → Slot → Prop
  | .biquad coefficients, .biquad slot => SetsFilter coefficients count slot.parameters
  | .limiter stage, .limiter slot => SetsLimiter stage count slot.parameters
  | .compressor stage, .compressor slot => SetsCompressor stage count slot.parameters
  | _, _ => False

/-- A slot runs a stage at its place in the order, on the first channels in place. -/
structure Runs (stage : Stage) (channels order : Nat) (slot : Slot) : Prop where
  order : slot.base?.map Effect.Base.order = some (UInt32.ofNat order)
  enabled : slot.isEnabled
  /-- The first channels stand in order, and zeros behind them. -/
  routing : ∃ buffers, slot.routing? = some (buffers, buffers) ∧ ∀ channel : Fin maxChannels,
    (buffers.get channel).toInt = if channel.val < channels then channel.val else 0
  holds : stage.Holds channels slot

section Parameters

variable {channels : Nat}

/-- The parameters of a biquad stage are what it sets. -/
theorem setsFilter (coefficients : Biquad.Coefficients) (few : channels ≤ maxChannels) :
    SetsFilter coefficients channels (biquadParameters coefficients channels) := by
  simp only [maxChannels] at few
  exact ⟨rfl, Int8.toInt_ofNat_of_lt (by omega), rfl⟩

/-- The parameters of a limiter stage are what it sets. -/
theorem setsLimiter (stage : LimiterStage) (few : channels ≤ maxChannels) :
    SetsLimiter stage channels (limiterParameters stage channels) := by
  have small : channels < UInt16.size := Nat.lt_of_le_of_lt few (by decide)
  exact ⟨UInt16.toNat_ofNat_of_lt small, rfl, rfl, rfl, rfl, rfl, rfl, rfl, rfl, rfl, rfl⟩

/-- The parameters of a compressor stage are what it sets. -/
theorem setsCompressor (stage : CompressorStage) (few : channels ≤ maxChannels) :
    SetsCompressor stage channels (compressorParameters stage channels) := by
  simp only [maxChannels] at few
  exact ⟨rfl, Int16.toInt_ofNat_of_lt (by omega), rfl, rfl, rfl, rfl, rfl, rfl, rfl, rfl, rfl, rfl,
    rfl, rfl, rfl, rfl⟩

end Parameters

variable {channels : Nat} {version : Version} {map : AddressMap} {address : Option Nat}

/-- A slot of a stage's kind takes the record of the stage, or ignores it as a whole. -/
theorem exists_apply (answers : map.locate 0 0 = .ok address) (few : channels ≤ maxChannels)
    (stage : Stage) (version : Version) (order : Nat) {slot : Slot}
    (kind : slot.kind = stage.kind) :
    ∃ new, slot.apply (stage.record channels order) version map = .ok new ∧
      (stage.isIgnored version = false → stage.Runs channels order new) ∧
      (stage.isIgnored version → new = slot) := by
  -- A slot of the stage's kind takes the parameters as they are; only first records of compressors
  -- are passed over.
  cases stage with
  | biquad coefficients =>
    cases slot with
    | biquad slot =>
      have valid := biquadParameters_isValid coefficients few version
      have taken := slot.receive_create (UInt32.ofNat order) valid
      refine ⟨_, rfl, fun _ => ?_, by simp [isIgnored, Stage.kind]⟩
      simp only [record, taken]
      exact ⟨rfl, rfl, ⟨_, rfl, buffers_toInt channels⟩, setsFilter coefficients few⟩
    | _ => cases kind
  | limiter stage =>
    cases slot with
    | limiter slot =>
      have taken := slot.receive_create answers (UInt32.ofNat order)
        (limiterParameters stage channels)
      refine ⟨_, congrArg (Slot.limiter <$> ·) taken, fun _ => ?_, by simp [isIgnored, Stage.kind]⟩
      exact ⟨rfl, rfl, ⟨_, rfl, buffers_toInt channels⟩, setsLimiter stage few⟩
    | _ => cases kind
  | compressor stage =>
    cases slot with
    | compressor slot =>
      cases version with
      | first => exact ⟨_, rfl, by simp [isIgnored, Stage.kind], fun _ => rfl⟩
      | second =>
        have taken := slot.receive_create answers (UInt32.ofNat order)
          (compressorParameters stage channels)
        refine ⟨_, congrArg (Slot.compressor <$> ·) taken, fun _ => ?_, by simp [isIgnored]⟩
        exact ⟨rfl, rfl, ⟨_, rfl, buffers_toInt channels⟩, setsCompressor stage few⟩
    | _ => cases kind

/-- A stage's record leaves a slot of the stage's kind, which runs the stage unless it ignores it. -/
theorem exists_receive (answers : map.locate 0 0 = .ok address) (few : channels ≤ maxChannels)
    (stage : Stage) (version : Version) (order : Nat) (old : Slot) :
    ∃ new, old.receive (stage.record channels order) version map = .ok new ∧
      new.kind = stage.kind ∧
      (stage.isIgnored version = false → stage.Runs channels order new) ∧
      (stage.isIgnored version →
        new = if old.kind = .compressor then old else .compressor .new) := by
  -- The kinds of stages are among those that are processed.
  have processed : (Kind.ofByte (stage.record channels order).kind).processed = stage.kind := by
    cases stage <;> rfl
  have kind := (old.target_kind (stage.record channels order)).trans processed
  obtain ⟨new, taken, runs, ignored⟩ := stage.exists_apply answers few version order kind
  refine ⟨new, taken, (Slot.apply_keeps taken).1.trans kind, runs, fun skipped => ?_⟩
  cases stage with
  | compressor stage =>
    rw [ignored skipped, Slot.target]
    by_cases same : old.kind = .compressor
    · rw [if_pos same, if_neg fun replaced => Slot.isReplacedBy_iff.mp replaced same]
    · rw [if_neg same, if_pos (Slot.isReplacedBy_iff.mpr same)]
      rfl
  | _ => simp [isIgnored, Stage.kind] at skipped

end Stage

namespace Config

variable (config : Config) {channels : Nat}

/-- The records of a configuration are those of its stages in order. -/
theorem exists_records (positive : 0 < channels) (few : channels ≤ maxChannels) :
    ∃ records, config.records channels = .ok records ∧
      records.length = config.stages.length ∧
      (∀ record ∈ records, record.WellFormed) ∧
      ∀ (index : Nat) (record : Record), records[index]? = some record →
        ∃ stage, config.stages[index]? = some stage ∧ record = stage.record channels index := by
  -- A stage's place in the list is the order that its record names.
  have counted : checkChannels channels = .ok () := if_pos ⟨positive, few⟩
  refine ⟨_, by simp only [records, counted, ok_bind, pure_eq_ok]; rfl, by simp, ?_, ?_⟩
  · intro record here
    obtain ⟨⟨stage, order⟩, -, rfl⟩ := List.mem_map.mp here
    exact stage.record_wellFormed channels order
  · intro index record here
    rw [List.getElem?_map, List.getElem?_zipIdx, Option.map_map, Nat.zero_add] at here
    obtain ⟨stage, found, same⟩ := Option.map_eq_some_iff.mp here
    exact ⟨stage, found, same.symm⟩

/-- A rack with a slot for each stage takes the records of a configuration, each slot its own. -/
theorem exists_update_records (positive : 0 < channels) (few : channels ≤ maxChannels)
    {rack : Rack} (sized : rack.size = config.stages.length) {map : AddressMap}
    {address : Option Nat} (answers : map.locate 0 0 = .ok address) (version : Version) :
    ∃ records after, config.records channels = .ok records ∧
      records.length = config.stages.length ∧
      rack.update (records.flatMap Record.encode) version map =
        .ok (after, (records.flatMap Record.encode).length) ∧
      after.size = rack.size ∧
      ∀ (index : Nat) (stage : Stage) (old : Slot), config.stages[index]? = some stage →
        rack.slots[index]? = some old → ∃ new, after.slots[index]? = some new ∧
          old.receive (stage.record channels index) version map = .ok new := by
  obtain ⟨records, made, length, formed, written⟩ := config.exists_records positive few
  have count : records.length = rack.size := length.trans sized.symm
  have taken := Record.length_flatMap_encode formed
  have named := Record.at?_flatMap_encode formed
  rw [count] at taken
  -- Every slot takes the record in its place, so the blob as a whole is taken.
  obtain ⟨after, ran⟩ := Rack.exists_receiveAll (Nat.le_of_eq taken.symm)
    fun index slot record _ there => by
      obtain ⟨stage, -, same⟩ := written index record ((named index).symm.trans there)
      obtain ⟨new, received, -⟩ := stage.exists_receive answers few version index slot
      exact ⟨new, same ▸ received⟩
  rw [← taken] at ran
  obtain ⟨size, -⟩ := Rack.receiveAll_rest ran
  have updated := Rack.update_eq_ok.mpr ran
  refine ⟨records, after, made, length, updated, size, fun index stage old found held => ?_⟩
  obtain ⟨inside, -⟩ := List.getElem?_eq_some_iff.mp held
  -- The slot after the update comes from the slot and the record in its own place.
  have here := List.getElem?_eq_getElem (inside.trans_eq size.symm)
  obtain ⟨was, record, before, there, received⟩ := Rack.exists_of_update updated here
  obtain rfl := Option.some.inj (held.symm.trans before)
  obtain ⟨other, also, rfl⟩ := written index record ((named index).symm.trans there)
  obtain rfl := Option.some.inj (found.symm.trans also)
  exact ⟨_, here, received⟩

/--
The records of a configuration are taken by any rack with as many slots as there are stages. Then
each slot runs its own stage, on the first channels in place and with all parameters as the stage
sets them; only a compressor in a first record is ignored, and its slot is what it was, or new.
Records and the parameters in them are read back from their bytes.
-/
theorem update_records (positive : 0 < channels) (few : channels ≤ maxChannels) {rack : Rack}
    (sized : rack.size = config.stages.length) {map : AddressMap} {address : Option Nat}
    (answers : map.locate 0 0 = .ok address) (version : Version) :
    (∃ records after, config.records channels = .ok records ∧
      rack.update (records.flatMap Record.encode) version map =
        .ok (after, (records.flatMap Record.encode).length) ∧
      after.size = rack.size ∧
      ∀ (index : Nat) (stage : Stage) (old : Slot), config.stages[index]? = some stage →
        rack.slots[index]? = some old → ∃ new, after.slots[index]? = some new ∧
          new.kind = stage.kind ∧
          (stage.isIgnored version = false → stage.Runs channels index new) ∧
          (stage.isIgnored version →
            new = if old.kind = .compressor then old else .compressor .new)) ∧
      (∀ record : Record, record.WellFormed → Reader.Reads Record.reader record.encode record) ∧
      (∀ parameters, Reader.Reads Effect.BiquadParameters.reader parameters.encode parameters) ∧
      (∀ parameters, Reader.Reads Limiter.Parameters.reader parameters.encode parameters) ∧
      ∀ parameters, Reader.Reads Compressor.Parameters.reader parameters.encode parameters := by
  -- What was encoded is decoded, record by record and parameter by parameter.
  refine ⟨?_, fun _ => Record.reads_encode, Effect.BiquadParameters.reads_encode,
    Limiter.Parameters.reads_encode, Compressor.Parameters.reads_encode⟩
  obtain ⟨records, after, made, -, ran, size, each⟩ :=
    config.exists_update_records positive few sized answers version
  refine ⟨records, after, made, ran, size, fun index stage old found held => ?_⟩
  obtain ⟨new, here, received⟩ := each index stage old found held
  -- The slot in a stage's place has taken the record of that stage, whatever it was before.
  obtain ⟨other, also, outcome⟩ := stage.exists_receive answers few version index old
  obtain rfl := Except.ok.inj (also.symm.trans received)
  exact ⟨_, here, outcome⟩

/-- First records put the limiter of a stage in a compressor's place with its own parameters, and
leave the compressor behind it as it was; second ones give this one the parameters of its stage. -/
theorem update_records_first :
    let config : Config :=
      ⟨240, .newest, false, [.limiter ⟨1, 10, 4, 5, 2⟩, .compressor ⟨6, 3, 1, 10, 10, 7, true⟩], [],
        by decide, by decide, by decide +kernel, by decide⟩
    let old : Slot := .compressor ⟨⟨0, 1, true, .enabled, 0⟩, .zero, some 3⟩
    let rack : Rack := ⟨[old, old], [.zero, .zero], []⟩
    (0 < 2 ∧ 2 ≤ maxChannels ∧ rack.size = config.stages.length ∧
        AddressMap.identity.locate 0 0 = .ok none) ∧
      ∃ records early late limiter compressor, config.records 2 = .ok records ∧
        rack.update (records.flatMap Record.encode) .first .identity =
          .ok (early, (records.flatMap Record.encode).length) ∧
        rack.update (records.flatMap Record.encode) .second .identity =
          .ok (late, (records.flatMap Record.encode).length) ∧
        early.slots[0]? = some (.limiter limiter) ∧ early.slots[1]? = some old ∧
        late.slots[1]? = some (.compressor compressor) ∧
        (limiter.parameters.channels.toNat = 2 ∧ limiter.parameters.attack = 1 ∧
          limiter.parameters.release = 10 ∧ limiter.parameters.threshold = 4 ∧
          limiter.parameters.makeup = 5 ∧ limiter.parameters.ratio = 2) ∧
        (compressor.parameters.channels.toInt = 2 ∧ compressor.parameters.threshold = 6 ∧
          compressor.parameters.ratio = 3 ∧ compressor.parameters.outputGain = 7 ∧
          compressor.parameters.makeup = 1) := by
  intro config old rack
  have answers : AddressMap.identity.locate 0 0 = .ok none := rfl
  have sized : rack.size = config.stages.length := rfl
  obtain ⟨⟨records, early, made, ran, -, each⟩, -⟩ :=
    config.update_records Nat.two_pos (by decide) sized answers .first
  obtain ⟨⟨others, late, madeToo, ranToo, -, eachToo⟩, -⟩ :=
    config.update_records Nat.two_pos (by decide) sized answers .second
  obtain rfl := Except.ok.inj (made.symm.trans madeToo)
  obtain ⟨first, here, -, runs, -⟩ := each 0 _ old rfl rfl
  obtain ⟨second, there, -, -, ignored⟩ := each 1 _ old rfl rfl
  obtain ⟨third, behind, -, runsToo, -⟩ := eachToo 1 _ old rfl rfl
  obtain rfl := ignored rfl
  -- A slot that holds what a stage sets is of the stage's kind.
  have limits := (runs rfl).holds
  have compresses := (runsToo rfl).holds
  cases first with
  | limiter limiter =>
    cases third with
    | compressor compressor =>
      exact ⟨⟨Nat.two_pos, by decide, sized, answers⟩, records, early, late, limiter, compressor,
        made, ran, ranToo, here, there, behind,
        ⟨limits.channels, limits.attack, limits.release, limits.threshold, limits.makeup,
          limits.ratio⟩,
        compresses.channels, compresses.threshold, compresses.ratio, compresses.outputGain,
        compresses.makeup⟩
    | _ => exact compresses.elim
  | _ => exact limits.elim

end Config

end Mixdown
