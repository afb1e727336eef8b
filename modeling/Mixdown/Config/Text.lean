import Mixdown.Config
import Mixdown.Json.Record

/-! Configurations written as structured text. -/

namespace Mixdown

/-- The fields of a biquad stage that have been read. -/
structure BiquadDraft where
  b : Option (Vector Int16 3) := none
  a : Option (Vector Int16 2) := none

/-- The fields of a limiter stage that have been read. -/
structure LimiterDraft where
  attackTime : Option Single := none
  releaseTime : Option Single := none
  threshold : Option Single := none
  makeupGain : Option Single := none
  ratio : Option Single := none

/-- The fields of a compressor stage that have been read. -/
structure CompressorDraft where
  threshold : Option Single := none
  ratio : Option Single := none
  attackTime : Option Single := none
  releaseTime : Option Single := none
  detectorTime : Option Single := none
  outputGain : Option Single := none
  makeupGain : Option Bool := none

/-- The fields of a destination filter that have been read. -/
structure FilterDraft where
  numerator : Option (Vector Single 3) := none
  denominator : Option (Vector Single 2) := none

/-- The fields of a configuration that have been read. -/
structure SettingsDraft where
  frame : Option UInt32 := none
  revision : Option UInt32 := none
  double : Option Bool := none
  stages : Option (List Stage) := none
  filters : Option (List DestinationFilter) := none

/-- The value of a complete draft; a record is not read without its required fields. -/
def finished (value : Option α) : Json.Parser α :=
  match value with
  | some value => pure value
  | none => throw .value

/-- A biquad stage, whose coefficients have fourteen fractional bits. -/
def Stage.biquadParser : Json.Parser Stage := do
  let fields : List (Json.Field BiquadDraft) :=
    [.ofValue "b" true (·.b) (fun draft b => { draft with b }) (Json.vector Json.integer16 3),
     .ofValue "a" true (·.a) (fun draft a => { draft with a }) (Json.vector Json.integer16 2)]
  let draft ← Json.record fields .passed {}
  finished do
    let b ← draft.b
    let a ← draft.a
    pure (.biquad { b, a })

/-- A limiter stage, which gives no gain back unless it says so. -/
def Stage.limiterParser : Json.Parser Stage := do
  let fields : List (Json.Field LimiterDraft) :=
    [.ofValue "attack_time" true (·.attackTime)
       (fun draft attackTime => { draft with attackTime }) Json.single,
     .ofValue "release_time" true (·.releaseTime)
       (fun draft releaseTime => { draft with releaseTime }) Json.single,
     .ofValue "threshold" true (·.threshold)
       (fun draft threshold => { draft with threshold }) Json.single,
     .ofValue "makeup_gain" false (·.makeupGain)
       (fun draft makeupGain => { draft with makeupGain }) Json.single,
     .ofValue "ratio" true (·.ratio) (fun draft ratio => { draft with ratio }) Json.single]
  let draft ← Json.record fields .passed {}
  -- The gain is the only field that may be left out.
  finished do
    let attackTime ← draft.attackTime
    let releaseTime ← draft.releaseTime
    let threshold ← draft.threshold
    let ratio ← draft.ratio
    pure (.limiter
      { attackTime, releaseTime, threshold, makeupGain := draft.makeupGain.getD 0, ratio })

/-- A compressor stage, whose detector takes ten milliseconds unless it says so. -/
def Stage.compressorParser : Json.Parser Stage := do
  let fields : List (Json.Field CompressorDraft) :=
    [.ofValue "threshold" true (·.threshold)
       (fun draft threshold => { draft with threshold }) Json.single,
     .ofValue "ratio" true (·.ratio) (fun draft ratio => { draft with ratio }) Json.single,
     .ofValue "attack_time" true (·.attackTime)
       (fun draft attackTime => { draft with attackTime }) Json.single,
     .ofValue "release_time" true (·.releaseTime)
       (fun draft releaseTime => { draft with releaseTime }) Json.single,
     .ofValue "detector_time" false (·.detectorTime)
       (fun draft detectorTime => { draft with detectorTime }) Json.single,
     .ofValue "out_gain" false (·.outputGain)
       (fun draft outputGain => { draft with outputGain }) Json.single,
     .ofValue "makeup_gain" false (·.makeupGain)
       (fun draft makeupGain => { draft with makeupGain }) Json.truth]
  let draft ← Json.record fields .passed {}
  -- Three fields may be left out.
  finished do
    let threshold ← draft.threshold
    let ratio ← draft.ratio
    let attackTime ← draft.attackTime
    let releaseTime ← draft.releaseTime
    pure (.compressor
      { threshold, ratio, attackTime, releaseTime
        detectorTime := draft.detectorTime.getD 10
        outputGain := draft.outputGain.getD 0
        makeupGain := draft.makeupGain.getD false })

/-- A stage, written under the name of its kind. -/
def Stage.parser : Json.Parser Stage :=
  Json.oneOf
    [("BiquadFilter", Stage.biquadParser), ("Limiter", Stage.limiterParser),
     ("Compressor", Stage.compressorParser)]

/-- A destination filter. -/
def DestinationFilter.parser : Json.Parser DestinationFilter := do
  let fields : List (Json.Field FilterDraft) :=
    [.ofValue "numerator" true (·.numerator)
       (fun draft numerator => { draft with numerator }) (Json.vector Json.single 3),
     .ofValue "denominator" true (·.denominator)
       (fun draft denominator => { draft with denominator }) (Json.vector Json.single 2)]
  let draft ← Json.record fields .passed {}
  finished do
    let numerator ← draft.numerator
    let denominator ← draft.denominator
    pure { numerator, denominator }

/-- The samples of a frame when a text does not say. -/
def defaultFrame : UInt32 := 240

/-- The settings that a text writes; only the stages have to be there. -/
def Settings.parser : Json.Parser Settings := do
  let fields : List (Json.Field SettingsDraft) :=
    [.ofValue "sample_count" false (·.frame)
       (fun draft frame => { draft with frame }) Json.natural32,
     .ofValue "revision" false (·.revision)
       (fun draft revision => { draft with revision }) Json.natural32,
     .ofValue "use_float_processing" false (·.double)
       (fun draft double => { draft with double }) Json.truth,
     .ofValue "stages" true (·.stages)
       (fun draft stages => { draft with stages }) (Json.list Stage.parser),
     .ofValue "destination_filters" false (·.filters)
       (fun draft filters => { draft with filters }) (Json.list DestinationFilter.parser)]
  -- Unlike in a stage, a field that is not known is refused here.
  let draft ← Json.record fields .refused {}
  finished do
    let stages ← draft.stages
    -- What the text leaves out is what a new session starts from.
    pure { frame := draft.frame.getD defaultFrame
           revision := draft.revision.getD (UInt32.ofNat newestRevision)
           double := draft.double.getD false
           stages
           filters := draft.filters.getD [] }

/-- The configuration that a text writes. -/
def Config.parse (text : String) : Except Error Config := do
  let settings ← (Json.parseAll Settings.parser text).mapError .text
  (Config.ofSettings settings).mapError .config

end Mixdown
