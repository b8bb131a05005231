import CounterTrace.Packet.Batch
import CounterTrace.Session.Transport

/-!
# Sender sessions

A session sends its description, drops the first buffers of its source as a warm-up, reads the
count of missed samples as a baseline, and then sends every buffer as a batch of packets, stamped
with the samples missed since the baseline.  It ends with its source, or when it has sent more than
its byte budget, or when it is cancelled.

    batches warmup source missed      what is left of a source after the warm-up, with the
                                      samples missed until each buffer was read
    s.run …                           the whole session
-/

namespace CounterTrace

/-- What limits a session. -/
structure SessionOptions where
  /-- Buffers dropped at the beginning. -/
  warmupBuffers : Nat := 2
  /-- Budget in units of 1000 bytes; zero stands for none. -/
  kbytesLimit : Nat := 0
  deriving DecidableEq, Repr

/-- What a session has sent. -/
structure SessionStats where
  buffers : Nat := 0
  samples : Nat := 0
  packets : Nat := 0
  bytes : Nat := 0
  missed : UInt32 := 0
  deriving DecidableEq, Repr

/-- Why a session ended well. -/
inductive StopReason where
  | endOfStream
  | byteLimit
  | cancelled
  deriving DecidableEq, Repr

def StopReason.name : StopReason → String
  | .endOfStream => "EndOfStream"
  | .byteLimit => "ByteLimit"
  | .cancelled => "Cancelled"

/-- Whether a number of bytes is over a budget. -/
def kbytesExceeded (bytes kbytes : Nat) : Bool := 0 < kbytes && kbytes < bytes / 1000

/-- What a session keeps from batch to batch. -/
structure Session (l : Type) where
  builder : PacketBuilder := {}
  cache : IdentityCache l
  options : SessionOptions
  stats : SessionStats := {}
  /-- Loads and processes of the cache after the last batch that was sent. -/
  reported : UInt64 × Nat := (0, 0)

/-! ## Reading buffers -/

/-- Buffers of a source, up to its end or its failure. -/
abbrev BufferSource := List (Except Failure Buffer)

/-- Readings of the missed counter, by number. -/
abbrev MissedReadings := Nat → Except Failure UInt32

/-- Samples missed since the baseline; none if the counter has gone back. -/
def missedSince (baseline reading : UInt32) : UInt32 :=
  if reading < baseline then 0 else reading - baseline

/-- Pairs every buffer with the samples missed until it was read, beginning with reading `i`.  The
first failure is the last item. -/
def withMissed (baseline : UInt32) (missed : MissedReadings) :
    Nat → BufferSource → List (Except Failure (Buffer × UInt32))
  | _, [] => []
  | _, .error f :: _ => [.error f]
  | i, .ok b :: rest =>
    match missed i with
    | .error f => [.error f]
    | .ok m => .ok (b, missedSince baseline m) :: withMissed baseline missed (i + 1) rest

/-- The batches of a source. -/
def batches : Nat → BufferSource → MissedReadings → List (Except Failure (Buffer × UInt32))
  | 0, source, missed =>
    match missed 0 with
    | .error f => [.error (.within "reading missed baseline" f)]
    | .ok baseline => withMissed baseline missed 1 source
  | _ + 1, [], _ => []
  | _ + 1, .error f :: _, _ => [.error (.within "reading warm-up buffer" f)]
  | n + 1, .ok _ :: rest, missed => batches n rest missed

/-! ## Sending batches -/

/-- Sends packets one after the other.  Gives the number of their bytes. -/
def sendPackets : List Packet → Transport → Except Failure Nat × Transport
  | [], t => (.ok 0, t)
  | p :: ps, t =>
    match t.send (.packet p) with
    | (.error f, t) => (.error f, t)
    | (.ok n, t) =>
      match sendPackets ps t with
      | (.error f, t) => (.error f, t)
      | (.ok m, t) => (.ok (n + m), t)

namespace Session

variable {l : Type}

def new (cache : IdentityCache l) (options : SessionOptions) : Session l :=
  { cache := cache, options := options }

/-- Takes note of a batch that was sent. -/
def accounted (s : Session l) (buffer : Buffer) (missed : UInt32) (packets bytes : Nat) :
    Session l :=
  { s with
    stats :=
      { buffers := s.stats.buffers + 1, samples := s.stats.samples + buffer.count
        packets := s.stats.packets + packets, bytes := s.stats.bytes + bytes, missed := missed }
    reported := (s.cache.loads, s.cache.size) }

variable [MetadataLoader l]

def sendBatch (s : Session l) (buffer : Buffer) (missed : UInt32) (t : Transport) :
    Except Failure Unit × Session l × Transport :=
  let (packets, builder, cache) := s.builder.encodeBuffer buffer s.cache missed
  let s := { s with builder := builder, cache := cache }
  match sendPackets packets t with
  | (.error f, t) => (.error f, s, t)
  | (.ok bytes, t) =>
    match t.flush with
    | (.error f, t) => (.error f, s, t)
    | (.ok (), t) => (.ok (), s.accounted buffer missed packets.length bytes, t)

/-- Sends batches until they end, fail or exceed the budget.  When they end, the session stops for
the given reason. -/
def sendBatches (atEnd : StopReason) :
    List (Except Failure (Buffer × UInt32)) → Session l → Transport →
      Except Failure StopReason × Session l × Transport
  | [], s, t => (.ok atEnd, s, t)
  | .error f :: _, s, t => (.error f, s, t)
  | .ok (buffer, missed) :: rest, s, t =>
    match s.sendBatch buffer missed t with
    | (.error f, s, t) =>
      (.error (.within s!"sending batch {s.builder.batch}" f), s, t)
    | (.ok (), s, t) =>
      if kbytesExceeded s.stats.bytes s.options.kbytesLimit then (.ok .byteLimit, s, t)
      else sendBatches atEnd rest s t

def run (s : Session l) (source : BufferSource) (missed : MissedReadings)
    (description : Description) (atEnd : StopReason) (t : Transport) :
    Except Failure StopReason × Session l × Transport :=
  match t.send (.description description) with
  | (.error f, t) => (.error (.within "sending session description" f), s, t)
  | (.ok _, t) =>
    match sendBatches atEnd (batches s.options.warmupBuffers source missed) s t with
    | (.error f, s, t) => (.error f, s, t)
    | (.ok reason, s, t) =>
      match t.finish with
      | (.error f, t) => (.error (.within "closing transport" f), s, t)
      | (.ok (), t) => (.ok reason, s, t)

end Session

end CounterTrace
