/-!
# Samples

A sample is what one counter overflow leaves behind: the cycle counter, the process that was
running and six event counters.
-/

namespace CounterTrace

/-- Event counters carried by every sample. -/
def maxCounters : Nat := 6

/-- The counters of one overflow. -/
structure Sample where
  /-- Cycle counter at capture time, the period that just ended included. -/
  cycles : UInt64
  /-- Process that was running on the core. -/
  pid : UInt32
  counters : Vector UInt32 maxCounters
  deriving DecidableEq, Repr

namespace Sample

/-- Six counters from a list: extra values are dropped, missing ones are zero. -/
def countersOf (values : List UInt32) : Vector UInt32 maxCounters :=
  Vector.ofFn fun i => values.getD i.val 0

def zero : Sample := ⟨0, 0, Vector.replicate maxCounters 0⟩

instance : Inhabited Sample := ⟨zero⟩

theorem countersOf_toList (v : Vector UInt32 maxCounters) : countersOf v.toList = v := by
  apply Vector.ext
  intro i hi
  simp [countersOf, List.getD]

end Sample

end CounterTrace
