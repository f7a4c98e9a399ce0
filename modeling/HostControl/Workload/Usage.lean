/-
Module: HostControl.Workload.Usage
Purpose: Shares of processor time and memory that a container uses, from its counters.
Main exports: CpuSample, cpuPercent, memoryPercent
-/
import HostControl.Real.Shortest

namespace HostControl.Workload

/-- Counters of processor time at one moment: that of the container and that of the host, in
nanoseconds, and the cores that the container sees. -/
structure CpuSample where
  total : UInt64 := 0
  system : UInt64 := 0
  cpus : UInt32 := 0
deriving DecidableEq, Repr, Inhabited

/-- A number, or the nearer end of a range that it lies outside of. -/
def clamp (low high x : Float) : Float := if x < low then low else if x > high then high else x

/-- What a counter gained; nothing if it went back. -/
def gain (previous current : UInt64) : UInt64 := if previous < current then current - previous else 0

/-- The processor time used between two samples, in percent of one core. Counters that were set back
and hosts without any use give zero. -/
def cpuPercent (previous current : CpuSample) : Binary64 :=
  let used := gain previous.total current.total
  let passed := gain previous.system current.system
  if used = 0 ∨ passed = 0 then .ofFloat 0
  else
    let cores := (if current.cpus = 0 then 1 else current.cpus).toUInt64.toFloat
    .ofFloat (clamp 0 (100 * cores) (used.toFloat / passed.toFloat * cores * 100))

/-- The memory used, in percent of the limit; zero without a limit. -/
def memoryPercent (usage limit : UInt64) : Binary64 :=
  if limit = 0 then .ofFloat 0
  else .ofFloat (clamp 0 100 (usage.toFloat / limit.toFloat * 100))

end HostControl.Workload
