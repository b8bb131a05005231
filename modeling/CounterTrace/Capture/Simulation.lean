import CounterTrace.Capture

/-!
# Simulated captures

A simulation runs a capture over task counters in rounds: every core overflows once, in the order
of the cores, and then the clock goes on by one tick.

    s.round tick          one round
    s.saturate tick n     at most n rounds, until no buffer is free and a sample was missed
    s.record tick n       n rounds and a stop, with the buffers that a consumer takes after each
-/

namespace CounterTrace

/-- A capture over task counters, and the overflows that the simulation has caused. -/
structure Simulation where
  capture : Capture TaskCounters
  overflows : Nat := 0

/-- A completed buffer and the count of missed samples at the time when it was taken. -/
structure TakenBuffer where
  buffer : Buffer
  missed : UInt32
  deriving Repr

namespace Simulation

def start (capture : Capture TaskCounters) : Simulation := { capture := capture.start }

def overflow (s : Simulation) (core : Nat) : Simulation where
  capture := (s.capture.overflow (UInt32.ofNat core)).2
  overflows := s.overflows + 1

def wait (s : Simulation) (tick : UInt64) : Simulation :=
  let c := s.capture
  { s with capture := { c with source := { c.source with now := c.source.now + tick } } }

/-- One overflow of every core and one tick. -/
def round (s : Simulation) (tick : UInt64) : Simulation :=
  ((List.range s.capture.cores).foldl overflow s).wait tick

/-- Whether every buffer is completed and a sample was missed. -/
def isSaturated (s : Simulation) : Bool :=
  s.capture.pool.full.length == s.capture.pool.capacity && s.capture.control.missed != 0

/-- Goes on until the pool is saturated, for a limited number of rounds. -/
def saturate (tick : UInt64) : Nat → Simulation → Simulation
  | 0, s => s
  | n + 1, s => if s.isSaturated then s else saturate tick n (s.round tick)

/-- Rounds in which a pool is surely saturated: one core alone fills it in this many, and misses
one sample more. -/
def saturationRounds (pool : Pool) : Nat := pool.capacity * bufferCapacity + 2

def stop (s : Simulation) : Simulation := { s with capture := s.capture.stop }

def takeAll (s : Simulation) : List TakenBuffer × Simulation :=
  let (buffers, pool) := s.capture.pool.drainAll
  (buffers.map fun b => ⟨b, s.capture.control.missed⟩,
    { s with capture := { s.capture with pool := pool } })

/-- Runs for a number of rounds and stops.  After each round, and after the stop, every completed
buffer is taken. -/
def record (tick : UInt64) : Nat → Simulation → List TakenBuffer
  | 0, s => s.stop.takeAll.1
  | n + 1, s =>
    let (taken, s) := (s.round tick).takeAll
    taken ++ record tick n s

end Simulation

/-- Whether the cycle counts in a buffer never go back. -/
def Buffer.cyclesOrdered (b : Buffer) : Bool :=
  (b.samples.zip b.samples.tail).all fun (s, t) => s.cycles ≤ t.cycles

end CounterTrace
