import Mixdown.Config.Text
import Mixdown.Loudness
import Mixdown.Renderer
import Mixdown.Request
import Mixdown.Spectrum
import Mixdown.Wave

/-! What requests read, print and write. -/

namespace Mixdown

/-- The files as a request finds them. -/
structure Files where
  /-- The bytes of a file that can be opened. -/
  read : String → Option Bytes
  /-- Whether a file can be created at a path. -/
  writable : String → Bool

/-- What a request prints and the files it writes. -/
structure Outcome where
  text : String
  written : List (String × Bytes)
  deriving DecidableEq, Repr

namespace Request

/-- The configuration in a file of text. -/
def readConfig (files : Files) (path : String) : Except Error Config := do
  let text := (files.read path).bind fun bytes => String.fromUTF8? ⟨bytes.toArray⟩
  match text with
  | some text => Config.parse text
  | none => throw .unreadable

/-- The sound in a file. -/
def readSound (files : Files) (path : String) : Except Error Wave.Sound :=
  match files.read path with
  | some bytes => (Wave.decode bytes).mapError .wave
  | none => throw (.wave .input)

/-- The line that tells the statistics of a rendering. -/
def statisticsText (statistics : Load.Statistics) : String :=
  s!"dropped commands: {statistics.commandDrops}\n"

/-- Renders a sound file by a configuration into another sound file at the same rate. -/
def runRender (files : Files) (config input output : String) (statistics : Bool) :
    Except Error Outcome := do
  let config ← readConfig files config
  let sound ← readSound files input
  let renderer ← Renderer.create config sound.rows.length
  let meter := Load.Meter.create.setEnabled statistics
  let (_, meter, rows) ← renderer.render sound.rows meter
  -- The output is created before the sound is found to fit into a file.
  if !files.writable output then throw (.wave .input)
  let bytes ← Wave.encode sound.format.rate rows
  pure { text := if statistics then statisticsText meter.read else ""
         written := [(output, bytes)] }

/-- The frames of a hundredth of a second. -/
def blockLength (rate : Nat) : Nat := max (rate / 100) 1

/-- Takes the remaining frames into a meter, block by block. -/
def analyzeBlocks (block : Nat) : (blocks remaining : Nat) → (samples : List Single) →
    Loudness.Meter → Except Error Loudness.Meter
  | 0, _, _, meter => .ok meter
  | blocks + 1, remaining, samples, meter => do
    -- The last block may be short.
    let frames := min block remaining
    let length := frames * meter.parameters.channels
    let meter ← meter.analyze (samples.take length) frames
    analyzeBlocks block blocks (remaining - frames) (samples.drop length) meter

/-- A loudness in units of full scale, with two places. -/
def loudnessText (loudness : Single) : String := String.ofList (loudness.toText 2) ++ " LUFS"

/-- Measures the loudness of a sound file. -/
def runLoudness (files : Files) (input : String) (momentary : Single) :
    Except Error Outcome := do
  let sound ← readSound files input
  let rate := sound.format.rate.toNat
  let meter ←
    Loudness.Meter.create.setUp { rate, channels := sound.rows.length, momentary }
  let frames := sound.rows.shortest
  let block := blockLength rate
  -- The blocks are counted by rounding up.
  let blocks := (frames + block - 1) / block
  let meter ← analyzeBlocks block blocks frames sound.rows.toSingles meter
  pure { text :=
           s!"momentary:  {loudnessText meter.momentary}\n" ++
           s!"short-term: {loudnessText meter.shortTerm}\n" ++
           s!"integrated: {loudnessText meter.integrated}\n"
         written := [] }

/-- The line that tells a peak: the frequency with one place and the level with two. -/
def peakText (peak : Spectrum.Peak) : String :=
  let frequency := Decimal.padded 10 (peak.frequency.toText 1)
  let level := Decimal.padded 8 (peak.level.toText 2)
  String.ofList frequency ++ " Hz " ++ String.ofList level ++ " dBFS\n"

/-- Finds the strongest frequencies in one channel of a sound file. -/
def runSpectrum (files : Files) (input : String) (size peaks channel : Nat) :
    Except Error Outcome := do
  let sound ← readSound files input
  -- A channel is looked for before the samples are counted.
  match sound.rows[channel]? with
  | none => throw (.request (.missingChannel channel sound.rows.length))
  | some row =>
    let peaks ← Spectrum.strongest (Rows.toSingles [row]) size sound.format.rate.toNat peaks
    pure { text := String.join (peaks.map peakText), written := [] }

/-- Meets a request. -/
def run (request : Request) (files : Files) : Except Error Outcome :=
  match request with
  | .render config input output statistics => runRender files config input output statistics
  | .loudness input momentary => runLoudness files input momentary
  | .spectrum input size peaks channel => runSpectrum files input size peaks channel

end Request

end Mixdown
