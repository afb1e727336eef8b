import Mixdown.Config
import Mixdown.Effect.Rack
import Mixdown.Load
import Mixdown.Signal.Rows
import Mixdown.Splitter.Graph

/-! Rendering of whole channels, frame by frame, through the stages and filters of a session. -/

namespace Mixdown

/-- A session under way. -/
structure Renderer where
  revision : Revision
  rack : Effect.Rack
  graph : Splitter.Graph
  mixer : Mixer
  channels : Nat
  /-- Biquad stages run in double precision. -/
  double : Bool
  deriving DecidableEq, Repr

namespace Renderer

/-- The layout of effect records that a revision negotiates. -/
def recordVersion (revision : Revision) : Effect.Version :=
  if revision.hasSecondRecords then .second else .first

/-- The rack that holds the stages of a configuration. -/
def createRack (config : Config) (channels : Nat) : Except Error Effect.Rack := do
  let records ← (config.records channels).mapError .config
  let rack := Effect.Rack.create records.length records.length
  -- The records are sent as a guest sends them, and read back.
  let blob := records.flatMap Effect.Record.encode
  let (rack, _) ← rack.update blob (recordVersion config.revision) .identity
  pure rack

/-- The graph that leads every channel through the destination filters, if there are any. -/
def createGraph (config : Config) (channels : Nat) : Except Error Splitter.Graph := do
  if config.filters.isEmpty then return .empty
  let graph := Splitter.Graph.empty.allocate config.revision 1 channels
  -- A revision without splitters does without the filters.
  if !graph.isUsed then return graph
  let bytes ← (config.splitterSection channels).mapError .config
  let (consumed, graph) ← graph.update bytes
  if consumed = bytes.length then pure graph
  else throw (.request (.unreadSection consumed bytes.length))

/-- Starts a session on a number of channels. -/
def create (config : Config) (channels : Nat) : Except Error Renderer := do
  let rack ← createRack config channels
  let graph ← createGraph config channels
  let mixer ← Mixer.create channels config.frame
  pure { revision := config.revision, rack, graph, mixer, channels, double := config.double }

/-- The filters of destinations, each over the buffer counted from `buffer` on, with the graph and
the states after every filter has its state. -/
def filterCommands (revision : Revision) : (buffer : Nat) → (chain : List Nat) →
    Splitter.Graph → States → Splitter.Graph × States × List Command
  | _, [], graph, states => (graph, states, [])
  | buffer, place :: chain, graph, states =>
    match graph.destinations[place]? with
    -- A place without destination still counts as a buffer.
    | none => filterCommands revision (buffer + 1) chain graph states
    | some destination =>
      let (destination, table, commands) :=
        destination.commands revision (Int16.ofNat buffer) states.biquad
      let destinations := graph.destinations.setIfInBounds place destination
      let (graph, states, others) :=
        filterCommands revision (buffer + 1) chain { graph with destinations }
          { states with biquad := table }
      (graph, states, commands.map .biquad ++ others)

/-- The commands of a frame, stages before filters, with the renderer after each has its state. -/
def generate (renderer : Renderer) : Except Fault (Renderer × List Command) := do
  let { revision, rack, graph, mixer, double, .. } := renderer
  let (rack, states, stages) ← rack.generate 0 double mixer.states
  let (graph, states, filters) := filterCommands revision 0 (graph.chain 0) graph states
  pure ({ renderer with rack, graph, mixer := { mixer with states } }, stages ++ filters)

/-- Answers the guest after the commands of a frame have run. -/
def answer (renderer : Renderer) : Except Fault Renderer := do
  let rack := (renderer.rack.advance.publish renderer.mixer.states).share
  let graph ← renderer.graph.latch
  pure { renderer with rack, graph }

/-- Runs the commands of one frame over the buffers and answers the guest. -/
def frame (renderer : Renderer) : Except Fault (Renderer × Report) := do
  let (renderer, commands) ← renderer.generate
  -- The guest is answered only after all commands have run.
  let (mixer, report) ← renderer.mixer.process commands
  let renderer ← { renderer with mixer }.answer
  pure (renderer, report)

/-- Loads the front of the buffers from `channel` on with rows of samples; the rest is silent. -/
def loadRows (arena : Arena) : (channel : Nat) → (rows : Rows) → Except Fault Arena
  | _, [] => .ok arena
  | channel, row :: rows => do
    let segment ← arena.bufferSegment channel
    -- A short row is filled up, so that nothing of an earlier frame is heard.
    let silence := List.replicate (arena.frames - row.length) 0
    let arena ← arena.splice segment.start (row ++ silence)
    loadRows arena (channel + 1) rows

/-- Renders one frame, of which only the first samples are loaded and given back. -/
def renderFrame (renderer : Renderer) (length : Nat) (rows : Rows) :
    Except Fault (Renderer × Report × Rows) := do
  let mixer := renderer.mixer
  let arena ← loadRows mixer.arena 0 ((rows.take renderer.channels).map (·.take length))
  let (renderer, report) ← { renderer with mixer := { mixer with arena } }.frame
  let output ← (List.range renderer.channels).mapM fun channel => do
    pure ((← renderer.mixer.arena.buffer channel).take length)
  pure (renderer, report, output)

/-- Renders a number of frames; the last one is cut where the remaining samples end. -/
def renderFrames : (frames remaining : Nat) → (rows : Rows) → Renderer → Load.Meter →
    Except Fault (Renderer × Load.Meter × Rows)
  | 0, _, _, renderer, meter => .ok (renderer, meter, List.replicate renderer.channels [])
  | frames + 1, remaining, rows, renderer, meter => do
    let length := min renderer.mixer.frame remaining
    let (renderer, report, output) ← renderer.renderFrame length rows
    -- A rendering takes no time of its own, so that it counts no cycles.
    let meter := meter.record 0 report
    let (renderer, meter, others) ←
      renderFrames frames (remaining - length) (rows.map (·.drop length)) renderer meter
    pure (renderer, meter, List.zipWith (· ++ ·) output others)

/-- Renders rows of samples, one for each channel, as far as the shortest goes. -/
def render (renderer : Renderer) (rows : Rows) (meter : Load.Meter) :
    Except Fault (Renderer × Load.Meter × Rows) :=
  let total := Rows.shortest rows
  let frame := renderer.mixer.frame
  renderFrames ((total + frame - 1) / frame) total rows renderer meter

end Renderer

end Mixdown
