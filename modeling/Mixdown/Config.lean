import Mixdown.Config.Stage

/-! Configurations of a session, and the records in which a guest asks for one. -/

namespace Mixdown

/-- What a configuration text sets, before it is checked. -/
structure Settings where
  /-- The samples of a frame. -/
  frame : UInt32
  revision : UInt32
  /-- Biquad stages run in double precision. -/
  double : Bool
  stages : List Stage
  filters : List DestinationFilter
  deriving DecidableEq, Repr

/-- A configuration that describes a session. -/
structure Config where
  /-- The samples of a frame. -/
  frame : Nat
  revision : Revision
  /-- Biquad stages run in double precision. -/
  double : Bool
  stages : List Stage
  /-- The filters of every channel behind the stages. -/
  filters : List DestinationFilter
  frame_pos : 0 < frame
  frame_fits : frame < UInt32.size
  stages_valid : ∀ stage ∈ stages, stage.isValid
  filters_few : filters.length ≤ Splitter.maxFilters
  deriving DecidableEq, Repr

namespace Config

/-- The configuration that settings describe; the first fault found decides the error. -/
def ofSettings (settings : Settings) : Except ConfigError Config := do
  let { frame, revision, double, stages, filters } := settings
  -- Each check that is passed is kept in the configuration as its proof.
  if frame_pos : 0 < frame.toNat then
    if known : revision.toNat ≤ newestRevision then
      if filters_few : filters.length ≤ Splitter.maxFilters then
        match faulty : stages.findIdx? (!·.isValid) with
        | none =>
          pure { frame := frame.toNat, revision := { number := revision.toNat, known }
                 double, stages, filters, frame_pos, frame_fits := frame.toNat_lt_size
                 stages_valid := by simpa using faulty
                 filters_few }
        | some stage => throw (.stageRange stage)
      else throw (.tooManyFilters filters.length Splitter.maxFilters)
    else throw (.newerRevision revision.toNat newestRevision)
  else throw .emptyFrame

/-- A session has at least one channel and no more than an effect can work on. -/
def checkChannels (channels : Nat) : Except ConfigError Unit :=
  if 0 < channels ∧ channels ≤ maxChannels then .ok ()
  else .error (.channelRange channels maxChannels)

/-- The effect records of a session, one for each stage in order. -/
def records (config : Config) (channels : Nat) : Except ConfigError (List Effect.Record) := do
  checkChannels channels
  -- The order is the stage's place among all stages.
  pure (config.stages.zipIdx.map fun (stage, order) => stage.record channels order)

/-- The filters of a destination; those that are not listed are not enabled. -/
def destinationFilters (config : Config) : Vector Biquad.FloatCoefficients Splitter.maxFilters :=
  .ofFn fun i => (config.filters[i.val]?.map DestinationFilter.coefficients).getD .zero

/-- The record of the destination that leads a channel to the mix of its own number. -/
def destinationRecord (config : Config) (channel : Nat) : Splitter.DestinationRecord where
  magic := Splitter.destinationMagic
  id := Int32.ofNat channel
  volumes := .ofFn fun i => if i.val = channel then 1 else 0
  mixId := UInt32.ofNat channel
  filters := if config.revision.hasFilterRecords then some config.destinationFilters else none
  inUse := 1
  resetPrevious := 0
  reserved := .zeros (Splitter.DestinationRecord.reservedSize config.revision.hasFilterRecords)

/-- The section that links the first splitter to one destination for each channel. -/
def splitterSection (config : Config) (channels : Nat) : Except ConfigError Bytes := do
  checkChannels channels
  let header : Splitter.Header :=
    { magic := Splitter.headerMagic, splitters := 1, destinations := Int32.ofNat channels,
      reserved := .zeros 0x14 }
  let splitter : Splitter.SplitterRecord :=
    { magic := Splitter.splitterMagic, id := 0, rate := UInt32.ofNat defaultRate,
      count := UInt32.ofNat channels }
  let ids : Bytes := (List.range channels).flatMap fun id => Bytes.ofUInt32 (UInt32.ofNat id)
  let destinations : Bytes :=
    (List.range channels).flatMap fun channel => (config.destinationRecord channel).encode
  let bytes : Bytes := header.encode ++ splitter.encode ++ ids ++ destinations
  -- Sections are rounded up to whole units of their alignment.
  let units := (bytes.length + Splitter.sectionAlignment - 1) / Splitter.sectionAlignment
  pure (bytes.padTo (units * Splitter.sectionAlignment))

end Config

end Mixdown
