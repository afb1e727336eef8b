import Mixdown.Error
import Mixdown.Fault
import Mixdown.Request.Arguments

/-! The requests that a command line can make. -/

namespace Mixdown

/-- A request to the tool. -/
inductive Request where
  /-- Render a sound file by a configuration into another sound file. -/
  | render (config input output : String) (statistics : Bool)
  /-- Measure the loudness of a sound file. -/
  | loudness (input : String) (momentary : Single)
  /-- Find the strongest frequencies in one channel of a sound file. -/
  | spectrum (input : String) (size peaks channel : Nat)
  deriving DecidableEq, Repr

namespace Request

/-- The momentary window in seconds when none is asked for. -/
def defaultMomentary : Single := 0.4

/-- The transform size when none is asked for. -/
def defaultSize : Nat := 1024

/-- The number of peaks when none is asked for. -/
def defaultPeaks : Nat := 5

/-- The request to render; it names three files. -/
def render? (arguments : List String) : Option Request := do
  let arguments ← Arguments.ofList? [("--stats", .flag)] arguments
  match arguments.positions with
  | [config, input, output] => pure (.render config input output (arguments.hasFlag "--stats"))
  | _ => none

/-- The request to measure loudness; it names one file. -/
def loudness? (arguments : List String) : Option Request := do
  let arguments ← Arguments.ofList? [("--momentary", .valued)] arguments
  let momentary ← arguments.value? "--momentary" Single.ofText? defaultMomentary
  match arguments.positions with
  | [input] => pure (.loudness input momentary)
  | _ => none

/-- The request to find frequencies; it names one file. -/
def spectrum? (arguments : List String) : Option Request := do
  let shapes := [("--size", .valued), ("--peaks", .valued), ("--channel", .valued)]
  let arguments ← Arguments.ofList? shapes arguments
  let size ← arguments.value? "--size" (integerBelow? UInt32.size) defaultSize
  let peaks ← arguments.value? "--peaks" (naturalBelow? addressSpace) defaultPeaks
  let channel ← arguments.value? "--channel" (naturalBelow? addressSpace) 0
  match arguments.positions with
  | [input] => pure (.spectrum input size peaks channel)
  | _ => none

/-- The files that a request names. -/
def paths : Request → List String
  | .render config input output _ => [config, input, output]
  | .loudness input _ | .spectrum input _ _ _ => [input]

/-- The request that a command line makes, which has to name all of its files. -/
def parse (arguments : List String) : Except Error Request :=
  let request? :=
    match arguments with
    | "render" :: rest => render? rest
    | "loudness" :: rest => loudness? rest
    | "spectrum" :: rest => spectrum? rest
    | _ => none
  match request? with
  | some request => if request.paths.all (· ≠ "") then .ok request else .error .usage
  | none => .error .usage

end Request

end Mixdown
