import CounterTrace.Failure
import CounterTrace.Frame
import CounterTrace.Table

/-!
# Splitting a session

A splitter files every packet under its core and process.  It opens a trace when the first packet
for it comes, and when a core goes over to another process it marks a boundary in the trace that
the core has fed until then.  The index keeps for each trace where it is, the latest identity of
its process and the number of its samples.

A failure of the writer ends the step it happens in; what was done before in that step stays done.
-/

namespace CounterTrace

/-- What identifies a trace. -/
structure StreamKey where
  core : UInt8
  pid : UInt32
  deriving DecidableEq, Repr

/-- Traces are ordered by core, then by process. -/
def StreamKey.le (a b : StreamKey) : Bool := a.core < b.core || (a.core == b.core && a.pid ≤ b.pid)

/-- What the index tells of one trace. -/
structure IndexEntry where
  key : StreamKey
  cmdline : String
  executable : String
  location : String
  samples : Nat
  deriving DecidableEq, Repr

/-- Where traces are written.  Any operation may fail, and may leave its mark even then. -/
class TraceWriter (w : Type) where
  /-- Stores the description of the session. -/
  describe : w → Description → Except Failure Unit × w
  /-- Opens a trace for a process.  Gives its location. -/
  openTrace : w → StreamKey → String → String → Except Failure String × w
  writeSamples : w → StreamKey → List Sample → Except Failure Unit × w
  /-- Marks that the core has left the process of a trace. -/
  writeBoundary : w → StreamKey → Except Failure Unit × w
  close : w → StreamKey → Except Failure Unit × w
  /-- Writes the index, given in the order of the traces. -/
  writeIndex : w → List IndexEntry → Except Failure Unit × w

/-- What a splitter has done. -/
structure SplitStats where
  packets : Nat := 0
  samples : Nat := 0
  boundaries : Nat := 0
  dropped : Nat := 0
  deriving DecidableEq, Repr

/-- The state of a session that is being split. -/
structure Splitter (w : Type) where
  writer : w
  maxCores : Nat
  /-- The process that each core fed last. -/
  current : Table UInt8 UInt32 := Table.empty
  /-- Open traces, in the order in which they were opened. -/
  streams : List StreamKey := []
  index : Table StreamKey IndexEntry := Table.empty
  stats : SplitStats := {}

namespace Splitter

variable {w : Type}

def new (writer : w) (maxCores : Nat) : Splitter w := { writer := writer, maxCores := maxCores }

def keyOf (p : Packet) : StreamKey := ⟨p.header.core, p.header.pid⟩

/-- Takes note of a trace that was opened. -/
def opened (s : Splitter w) (key : StreamKey) (location : String) : Splitter w :=
  { s with
    streams := s.streams ++ [key]
    index := s.index.insert key ⟨key, "", "", location, 0⟩ }

/-- Takes note of a packet that was written. -/
def accounted (s : Splitter w) (p : Packet) : Splitter w :=
  { s with
    index := match s.index.get? (keyOf p) with
      | none => s.index
      | some e => s.index.insert (keyOf p)
          { e with cmdline := p.cmdline, executable := p.executable
                   samples := e.samples + p.samples.length }
    stats := { s.stats with
      packets := s.stats.packets + 1, samples := s.stats.samples + p.samples.length } }

/-- The index, in the order of the traces. -/
def entries (s : Splitter w) : List IndexEntry :=
  (s.index.entries.map (·.2)).mergeSort fun a b => a.key.le b.key

variable [TraceWriter w]

/-- Marks a boundary in a trace, if it is open. -/
def leave (s : Splitter w) (key : StreamKey) : Except Failure Unit × Splitter w :=
  if key ∈ s.streams then
    match TraceWriter.writeBoundary s.writer key with
    | (.ok (), writer) =>
      (.ok (), { s with
        writer := writer, stats := { s.stats with boundaries := s.stats.boundaries + 1 } })
    | (.error f, writer) => (.error f, { s with writer := writer })
  else (.ok (), s)

/-- Lets the core of a trace go over to its process. -/
def enter (s : Splitter w) (key : StreamKey) : Except Failure Unit × Splitter w :=
  match s.current.get? key.core with
  | none => (.ok (), { s with current := s.current.insert key.core key.pid })
  | some pid =>
    if pid = key.pid then (.ok (), s)
    else { s with current := s.current.insert key.core key.pid }.leave ⟨key.core, pid⟩

/-- Opens the trace of a packet, unless it is open. -/
def ensureOpen (s : Splitter w) (p : Packet) : Except Failure Unit × Splitter w :=
  if keyOf p ∈ s.streams then (.ok (), s)
  else
    match TraceWriter.openTrace s.writer (keyOf p) p.cmdline p.executable with
    | (.ok location, writer) => (.ok (), { s with writer := writer }.opened (keyOf p) location)
    | (.error f, writer) => (.error f, { s with writer := writer })

def store (s : Splitter w) (p : Packet) : Except Failure Unit × Splitter w :=
  match TraceWriter.writeSamples s.writer (keyOf p) p.samples with
  | (.ok (), writer) => (.ok (), { s with writer := writer }.accounted p)
  | (.error f, writer) => (.error f, { s with writer := writer })

/-- Goes on with the next step unless this one failed. -/
def andThen (r : Except Failure Unit × Splitter w)
    (next : Splitter w → Except Failure Unit × Splitter w) : Except Failure Unit × Splitter w :=
  match r with
  | (.ok (), s) => next s
  | (.error f, s) => (.error f, s)

/-- Files a packet.  One of a core out of range is dropped and counted. -/
def processPacket (s : Splitter w) (p : Packet) : Except Failure Unit × Splitter w :=
  if p.header.core.toNat < s.maxCores then
    andThen (andThen (s.enter (keyOf p)) (·.ensureOpen p)) (·.store p)
  else (.ok (), { s with stats := { s.stats with dropped := s.stats.dropped + 1 } })

def process (s : Splitter w) : Frame → Except Failure Unit × Splitter w
  | .description d =>
    let (r, writer) := TraceWriter.describe s.writer d
    (r, { s with writer := writer })
  | .packet p => s.processPacket p

def closeAll : List StreamKey → w → Except Failure Unit × w
  | [], writer => (.ok (), writer)
  | key :: keys, writer =>
    match TraceWriter.close writer key with
    | (.ok (), writer) => closeAll keys writer
    | (.error f, writer) => (.error f, writer)

/-- Closes all traces and writes the index. -/
def finish (s : Splitter w) : Except Failure Unit × w :=
  match closeAll s.streams s.writer with
  | (.ok (), writer) => TraceWriter.writeIndex writer s.entries
  | (.error f, writer) => (.error f, writer)

end Splitter

end CounterTrace
