import CounterTrace.Sample

/-!
# Counter sources

A capture reads its samples from a counter source.  Reading may change the source, for a clock
goes on and tasks take turns.

* `SteadyCounters`: a clock that goes on by a fixed step with each reading, fixed counters and
  pids, and a log of what was armed.
* `TaskCounters`: a clock that others move, and tasks that take turns on each core every
  `samplesPerTask` samples.
-/

namespace CounterTrace

/-- What a capture needs from the counters of a machine. -/
class CounterSource (σ : Type) where
  /-- Event counters that exist. -/
  available : σ → Nat
  /-- An event counter of a core. -/
  readCounter : σ → UInt32 → Nat → UInt32 × σ
  /-- The cycle counter of a core. -/
  readCycles : σ → UInt32 → UInt64 × σ
  /-- The process that runs on a core. -/
  currentPid : σ → UInt32 → UInt32 × σ
  /-- Starts the next period of a core and clears its event counters. -/
  rearm : σ → UInt32 → UInt32 → σ

/-! ## Steady counters -/

/-- A clock with a fixed step. -/
structure SteadyCounters where
  available : Nat := maxCounters
  now : UInt64 := 0
  step : UInt64 := 10
  counters : List UInt32 := [1, 2, 3, 4, 5, 6]
  /-- Process of each core that does not run process 0. -/
  pids : List (UInt32 × UInt32) := []
  /-- Cores armed since the log was last cleared, with the period, the latest first. -/
  armed : List (UInt32 × UInt32) := []
  deriving Repr

namespace SteadyCounters

/-- Puts a process on a core. -/
def run (s : SteadyCounters) (core pid : UInt32) : SteadyCounters :=
  { s with pids := (core, pid) :: s.pids }

def pidOf (s : SteadyCounters) (core : UInt32) : UInt32 := (s.pids.lookup core).getD 0

instance : CounterSource SteadyCounters where
  available s := s.available
  readCounter s core i := (s.counters.getD i 0 + 100 * core, s)
  readCycles s _ := (s.now, { s with now := s.now + s.step })
  currentPid s core := (s.pidOf core, s)
  rearm s core period := { s with armed := (core, period) :: s.armed }

end SteadyCounters

/-! ## Task counters -/

/-- Samples taken on a core before the next task runs there. -/
def samplesPerTask : Nat := 64

/-- Tasks that take turns. -/
structure TaskCounters where
  /-- Nanoseconds since the start. -/
  now : UInt64
  pids : List UInt32
  /-- For each core, when it was last armed. -/
  armedAt : List UInt64
  /-- For each core, how often its process was asked for.  The count wraps. -/
  turns : List UInt64
  deriving Repr

namespace TaskCounters

/-- Counters of a number of cores, at time zero. -/
def new (cores : Nat) (pids : List UInt32) : TaskCounters :=
  ⟨0, pids, List.replicate cores 0, List.replicate cores 0⟩

/-- The process whose turn it is on a core after `turn` samples. -/
def pidAt (pids : List UInt32) (core : UInt32) (turn : UInt64) : UInt32 :=
  pids.getD ((turn.toNat / samplesPerTask + core.toNat) % pids.length) 0

/-- Nanoseconds since a core was armed. -/
def sinceArmed (s : TaskCounters) (core : UInt32) : Nat :=
  s.now.toNat - (s.armedAt.getD core.toNat 0).toNat

instance : CounterSource TaskCounters where
  available _ := maxCounters
  readCounter s core i :=
    (UInt32.ofNat (min (s.sinceArmed core >>> i) (UInt32.size - 1)), s)
  readCycles s _ := (s.now, s)
  currentPid s core :=
    match s.turns[core.toNat]? with
    | none => (0, s)
    | some turn =>
      (pidAt s.pids core turn, { s with turns := s.turns.set core.toNat (turn + 1) })
  rearm s core _ := { s with armedAt := s.armedAt.set core.toNat s.now }

end TaskCounters

end CounterTrace
