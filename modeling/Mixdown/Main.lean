import Mixdown.Request.Run

/-! The command-line tool. -/

namespace Mixdown

/-- The bytes of a file, if it can be read. -/
def loadFile (path : String) : IO (Option Bytes) := do
  try
    pure (some (← IO.FS.readBinFile path).toList)
  catch _ => pure none

/-- Reads the files that a request names, meets it, and writes and prints what comes of it. -/
def meet (request : Request) : IO (Except Error Unit) := do
  -- The named files are read beforehand, so that the request itself has no effects.
  let loaded ← request.paths.mapM fun path => do pure (path, ← loadFile path)
  let read (path : String) : Option Bytes := (loaded.lookup path).join
  match request.run { read, writable := fun _ => true } with
  | .error error => pure (.error error)
  | .ok outcome =>
    try
      for (path, bytes) in outcome.written do
        IO.FS.writeBinFile path ⟨bytes.toArray⟩
      IO.print outcome.text
      pure (.ok ())
    catch _ => pure (.error (.wave .input))

/-- Meets the request of a command line and gives the exit code, telling errors apart from usage. -/
def runCommandLine (arguments : List String) : IO UInt32 := do
  match Request.parse arguments with
  | .error error =>
    IO.eprintln error.message
    pure 2
  | .ok request =>
    match ← meet request with
    | .ok () => pure 0
    | .error error =>
      IO.eprintln error.message
      pure 1

end Mixdown

/-- The entry point of the tool. -/
def main (arguments : List String) : IO UInt32 := Mixdown.runCommandLine arguments
