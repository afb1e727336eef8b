import Mixdown.Command

/-! Statistics of the signal processor's load, gathered while they are enabled. -/

namespace Mixdown.Load

/-- The statistics as their readers see them. -/
structure Statistics where
  totalCycles : Nat
  activeCycles : Nat
  voiceDrops : Nat
  commandDrops : Nat
  underruns : Nat
  overruns : Nat
  cpuPercent : Single
  dspPercent : Single
  deriving DecidableEq, Repr

/-- Statistics that are all zero. -/
def Statistics.zero : Statistics := ⟨0, 0, 0, 0, 0, 0, 0, 0⟩

/-- The largest count of cycles; the count stays there. -/
def maxCycles : Nat := UInt64.size - 1

/-- The largest count of drops; the count stays there. -/
def maxDrops : Nat := UInt32.size - 1

/-- The statistics after one frame. -/
def Statistics.account (statistics : Statistics) (cycles drops : Nat) : Statistics :=
  let totalCycles := min (statistics.totalCycles + cycles) maxCycles
  let activeCycles := min (statistics.activeCycles + cycles) maxCycles
  let commandDrops := min (statistics.commandDrops + drops) maxDrops
  let counted := { statistics with totalCycles, activeCycles, commandDrops }
  -- Without any cycles there is no share to tell, and the last one stays.
  if totalCycles = 0 then counted
  else
    let share := activeCycles.toUInt64.toFloat / totalCycles.toUInt64.toFloat * 100
    let cpuPercent : Single := .ofFloat share.toFloat32
    { counted with cpuPercent, dspPercent := cpuPercent * 0.5 }

/-- Statistics and whether they are gathered. -/
structure Meter where
  enabled : Bool
  statistics : Statistics
  deriving DecidableEq, Repr

namespace Meter

/-- A meter that gathers nothing yet. -/
def create : Meter := ⟨false, .zero⟩

/-- What a reader sees, which is zero while nothing is gathered. -/
def read (meter : Meter) : Statistics := if meter.enabled then meter.statistics else .zero

/-- Starts or stops gathering; stopping clears what was gathered. -/
def setEnabled (meter : Meter) (enabled : Bool) : Meter where
  enabled
  statistics := if enabled then meter.statistics else .zero

/-- Takes one frame into account. -/
def account (meter : Meter) (cycles drops : Nat) : Meter :=
  if meter.enabled then { meter with statistics := meter.statistics.account cycles drops }
  else meter

/-- Takes one frame and the commands it skipped into account. -/
def record (meter : Meter) (cycles : Nat) (report : Report) : Meter :=
  meter.account cycles report.skipped

end Meter

end Mixdown.Load
