import CounterTrace.Buffer
import CounterTrace.Identity.Cache
import CounterTrace.Packet

/-!
# Batches

A builder turns the samples of one buffer, a batch, into packets: consecutive samples of the same
core and process share a packet as long as it has room.  The header and the identity are those of
the packet's first sample.

    b.append core s e missed = none        if and only if `b.mustFlush core s e`
    b.encodeBuffer buffer cache missed     the packets of a whole buffer, in order
-/

namespace CounterTrace

/-- Packets in the making. -/
structure PacketBuilder where
  /-- The packet that may still grow; it holds at least one sample. -/
  pending : Option Packet := none
  batch : UInt32 := 0
  /-- Samples of the batch so far. -/
  index : UInt32 := 0
  deriving DecidableEq, Repr

namespace PacketBuilder

def isEmpty (b : PacketBuilder) : Bool := b.pending.isNone

/-- Whether a sample cannot go into the pending packet.  A kernel packet takes samples of kernel
processes only, a user packet any. -/
def mustFlush (b : PacketBuilder) (core : UInt32) (s : Sample) (e : Identity) : Bool :=
  match b.pending with
  | none => false
  | some p =>
    maxQuantity ≤ p.samples.length || (p.header.kernel && !e.isKernel) ||
      p.header.core != wireCore core || p.header.pid != s.pid

/-- The packet that a sample opens. -/
def opened (b : PacketBuilder) (core : UInt32) (s : Sample) (e : Identity) (missed : UInt32) :
    Packet where
  header :=
    { kernel := e.isKernel, counterCount := UInt8.ofNat maxCounters
      core := wireCore core, quantity := 0, batch := b.batch, missed := missed
      firstIndex := b.index, pid := s.pid }
  samples := []
  cmdline := e.cmdline
  executable := e.executable

def extend (p : Packet) (s : Sample) : Packet :=
  { p with
    samples := p.samples ++ [s]
    header := { p.header with quantity := UInt8.ofNat (p.samples.length + 1) } }

/-- Adds a sample to the pending packet, or to a new one. -/
def push (b : PacketBuilder) (core : UInt32) (s : Sample) (e : Identity) (missed : UInt32) :
    PacketBuilder :=
  { b with
    pending := some (extend (b.pending.getD (b.opened core s e missed)) s)
    index := b.index + 1 }

/-- Adds a sample unless it needs a new packet. -/
def append (b : PacketBuilder) (core : UInt32) (s : Sample) (e : Identity) (missed : UInt32) :
    Option PacketBuilder :=
  if b.mustFlush core s e then none else some (b.push core s e missed)

def needsFlushMessage (core : UInt32) (s : Sample) : String :=
  s!"sample for pid {s.pid} on core {core} must start a new packet"

def flush (b : PacketBuilder) : Option Packet × PacketBuilder :=
  (b.pending, { b with pending := none })

/-- Begins the next batch.  A pending packet is dropped. -/
def startBatch (b : PacketBuilder) : PacketBuilder :=
  { pending := none, batch := b.batch + 1, index := 0 }

variable {l : Type} [MetadataLoader l]

/-- Adds the samples of a core, flushing where needed.  Gives the packets that became complete.
Processes may be looked at again only between packets. -/
def addSamples (core missed : UInt32) :
    List Sample → PacketBuilder → IdentityCache l → List Packet × PacketBuilder × IdentityCache l
  | [], b, cache => ([], b, cache)
  | s :: ss, b, cache =>
    let (e, cache) := cache.resolve s.pid b.isEmpty
    let (done, b) := if b.mustFlush core s e then b.flush else (none, b)
    let (packets, b, cache) := addSamples core missed ss (b.push core s e missed) cache
    (done.toList ++ packets, b, cache)

/-- Turns a whole buffer into a batch of packets. -/
def encodeBuffer (b : PacketBuilder) (buffer : Buffer) (cache : IdentityCache l)
    (missed : UInt32) : List Packet × PacketBuilder × IdentityCache l :=
  let (packets, b, cache) := addSamples buffer.core missed buffer.samples b.startBatch cache
  let (last, b) := b.flush
  (packets ++ last.toList, b, cache)

end PacketBuilder

end CounterTrace
