import CounterTrace.Pool
import CounterTrace.Control
import CounterTrace.Capture.Counters

/-!
# Captures

A capture gives every core one active buffer, or none.  An overflow on a core puts a sample into
its active buffer, which is taken from the pool first if the core has none and is published as soon
as it is full.  Without a free buffer the sample is missed.

* `start` returns what is active to the pool unread, opens the pool and arms every core;
* `stop` publishes what is active and closes the pool;
* every overflow that is not ignored arms its core again, with the period of the run.
-/

namespace CounterTrace

/-- What one overflow did. -/
inductive Overflow where
  | recorded
  | published
  | missed
  | ignored
  deriving DecidableEq, Repr

/-- A pool, its control block, a counter source and one place for a buffer on each core. -/
structure Capture (σ : Type) where
  pool : Pool
  control : Control
  source : σ
  active : List (Option Buffer)

namespace Capture

variable {σ : Type} [CounterSource σ]

/-- A capture on a number of cores, none of which has a buffer. -/
def new (pool : Pool) (control : Control) (source : σ) (cores : Nat) : Capture σ :=
  ⟨pool, control, source, List.replicate cores none⟩

def cores (c : Capture σ) : Nat := c.active.length

/-! ## Overflows -/

/-- Reads the event counters with numbers `i`, `i + 1`, … -/
def readCounters (core : UInt32) : Nat → Nat → σ → List UInt32 × σ
  | _, 0, s => ([], s)
  | i, n + 1, s =>
    let (v, s) := CounterSource.readCounter s core i
    let (vs, s) := readCounters core (i + 1) n s
    (v :: vs, s)

/-- Reads one sample.  Its cycle count includes the period that has just ended. -/
def snapshot (core period : UInt32) (s : σ) : Sample × σ :=
  let (values, s) := readCounters core 0 (min (CounterSource.available s) maxCounters) s
  let (cycles, s) := CounterSource.readCycles s core
  let (pid, s) := CounterSource.currentPid s core
  (⟨cycles + period.toUInt64, pid, Sample.countersOf values⟩, s)

/-- Puts a sample into the buffer of a core, publishes the buffer if that fills it, and arms the
core. -/
def record (c : Capture σ) (core : UInt32) (b : Buffer) : Overflow × Capture σ :=
  let period := c.control.activePeriod
  let (sample, source) := snapshot core period c.source
  let b := b.push sample
  let source := CounterSource.rearm source core period
  if b.isFull then
    (.published, { c with
      source := source, pool := c.pool.publish b, active := c.active.set core.toNat none })
  else
    (.recorded, { c with source := source, active := c.active.set core.toNat (some b) })

/-- Counts a sample that found no buffer, and arms the core. -/
def miss (c : Capture σ) (core : UInt32) : Overflow × Capture σ :=
  (.missed, { c with
    control := c.control.recordMissed
    source := CounterSource.rearm c.source core c.control.activePeriod })

/-- Handles one overflow of a core.  It is counted in any case, and ignored unless the capture
runs, the pool is open and the core exists. -/
def overflow (c : Capture σ) (core : UInt32) : Overflow × Capture σ :=
  let c := { c with control := c.control.recordOverflow }
  if !c.control.isRunning || c.pool.shutdown then (.ignored, c)
  else
    match c.active[core.toNat]? with
    | none => (.ignored, c)
    | some (some b) => c.record core b
    | some none =>
      match c.pool.acquire with
      | (some b, pool) => { c with pool := pool }.record core (b.reset core)
      | (none, pool) => { c with pool := pool }.miss core

/-! ## Starting and stopping -/

/-- Returns the active buffers to the pool, in the order of the cores. -/
def discardActive (c : Capture σ) : Capture σ :=
  { c with
    pool := c.active.foldl (fun p slot => slot.elim p p.release) c.pool
    active := c.active.map fun _ => none }

def start (c : Capture σ) : Capture σ :=
  let c := c.discardActive
  let control := c.control.begin
  { c with
    pool := c.pool.reopen
    control := control
    source := (List.range c.cores).foldl
      (fun s i => CounterSource.rearm s (UInt32.ofNat i) control.activePeriod) c.source }

/-- Publishes a buffer that holds samples and gives back one that holds none. -/
def flushBuffer (p : Pool) (b : Buffer) : Pool :=
  if b.isEmpty then p.release b else p.publish b

/-- Publishes the active buffers, in the order of the cores.  Gives the number published. -/
def flush (c : Capture σ) : Nat × Capture σ :=
  let held := c.active.filterMap id
  (held.countP fun b => !b.isEmpty,
    { c with pool := held.foldl flushBuffer c.pool, active := c.active.map fun _ => none })

def stop (c : Capture σ) : Capture σ :=
  let c := { c with control := c.control.halt }
  let (_, c) := c.flush
  { c with pool := c.pool.close }

/-- Writes a knob and does what a written status asks for.  A capture whose knob could not be
written is as it was. -/
def apply (c : Capture σ) (knob : Knob) (raw : String) : Except KnobError Unit × Capture σ :=
  match c.control.write knob raw with
  | .error e => (.error e, c)
  | .ok (request, control) =>
    let c := { c with control := control }
    match request with
    | none => (.ok (), c)
    | some .start => (.ok (), c.start)
    | some .stop => (.ok (), c.stop)
    | some .dump => (.ok (), c)

end Capture

end CounterTrace
