import CounterTrace.Failure
import CounterTrace.Frame

/-!
# Transports

A transport writes frames to a sink, and to a second one that repeats every byte if there is one.
In front of each sink bytes wait until there are enough of them or they are flushed.  Bytes that a
sink refused go on waiting.

    t.send f      (f.wire).length bytes more in `t.bytesSent`
    t.flush       nothing waits any more
-/

namespace CounterTrace

/-- What a sink can be asked to do. -/
inductive SinkCall where
  | write
  | flush
  | close
  deriving DecidableEq, Repr

/-- A sink that refuses one kind of call once it has taken a number of bytes. -/
structure SinkFault where
  call : SinkCall
  after : Nat
  message : String
  deriving DecidableEq, Repr

/-- The far end of a transport. -/
structure Sink where
  delivered : List UInt8 := []
  fault : Option SinkFault := none
  deriving DecidableEq, Repr

/-- Why a sink refuses a call, if it does. -/
def Sink.refusal? (s : Sink) (call : SinkCall) : Option String :=
  match s.fault with
  | some f => if f.call = call ∧ f.after ≤ s.delivered.length then some f.message else none
  | none => none

/-- A sink with bytes that wait in front of it. -/
structure BufferedSink where
  sink : Sink := {}
  waiting : List UInt8 := []
  deriving DecidableEq, Repr

namespace BufferedSink

/-- Bytes that can wait. -/
def capacity : Nat := 8192

def deliver (b : BufferedSink) (bytes : List UInt8) : Except String Unit × BufferedSink :=
  match b.sink.refusal? .write with
  | some why => (.error why, b)
  | none => (.ok (), { b with sink := { b.sink with delivered := b.sink.delivered ++ bytes } })

/-- Hands the waiting bytes to the sink as one piece. -/
def settle (b : BufferedSink) : Except String Unit × BufferedSink :=
  if b.waiting.isEmpty then (.ok (), b)
  else
    match b.deliver b.waiting with
    | (.ok (), b) => (.ok (), { b with waiting := [] })
    | (.error why, b) => (.error why, b)

/-- Takes bytes that find room behind those that wait already. -/
def enqueue (b : BufferedSink) (bytes : List UInt8) : Except String Unit × BufferedSink :=
  if bytes.length < capacity then (.ok (), { b with waiting := b.waiting ++ bytes })
  else b.deliver bytes

def write (b : BufferedSink) (bytes : List UInt8) : Except String Unit × BufferedSink :=
  if bytes.isEmpty then (.ok (), b)
  else if b.waiting.length + bytes.length ≤ capacity then b.enqueue bytes
  else
    match b.settle with
    | (.ok (), b) => b.enqueue bytes
    | (.error why, b) => (.error why, b)

/-- Makes a further call after the waiting bytes have been handed over. -/
def settleThen (b : BufferedSink) (call : SinkCall) : Except String Unit × BufferedSink :=
  match b.settle with
  | (.error why, b) => (.error why, b)
  | (.ok (), b) =>
    match b.sink.refusal? call with
    | some why => (.error why, b)
    | none => (.ok (), b)

end BufferedSink

/-- A sink for frames, and a second one with the same bytes. -/
structure Transport where
  out : BufferedSink := {}
  mirror : Option BufferedSink := none
  bytesSent : Nat := 0
  deriving DecidableEq, Repr

namespace Transport

/-- Makes a call of the second sink, if there is one. -/
def onMirror (t : Transport) (context : String)
    (act : BufferedSink → Except String Unit × BufferedSink) : Except Failure Unit × Transport :=
  match t.mirror with
  | none => (.ok (), t)
  | some m =>
    let (r, m) := act m
    (refusedWithin context r, { t with mirror := some m })

/-- Sends a frame.  Gives the number of its bytes. -/
def send (t : Transport) (f : Frame) : Except Failure Nat × Transport :=
  let bytes := f.wire
  match t.out.write bytes with
  | (.error why, out) =>
    (.error (.within "writing to endpoint" (.cause why)), { t with out := out })
  | (.ok (), out) =>
    match { t with out := out }.onMirror "writing debug mirror" (·.write bytes) with
    | (.error e, t) => (.error e, t)
    | (.ok (), t) => (.ok bytes.length, { t with bytesSent := t.bytesSent + bytes.length })

/-- Hands over everything that waits. -/
def flush (t : Transport) : Except Failure Unit × Transport :=
  match t.out.settleThen .flush with
  | (.error why, out) =>
    (.error (.within "flushing endpoint" (.cause why)), { t with out := out })
  | (.ok (), out) =>
    { t with out := out }.onMirror "flushing debug mirror" (·.settleThen .flush)

def finish (t : Transport) : Except Failure Unit × Transport :=
  match t.flush with
  | (.error e, t) => (.error e, t)
  | (.ok (), t) =>
    let (r, out) := t.out.settleThen .close
    (refusedWithin "closing endpoint" r, { t with out := out })

/-- Sends frames one after the other.  Gives the length of each and the total after it, up to the
first that fails. -/
def sendAll : List Frame → Transport → List (Except Failure Nat × Nat) × Transport
  | [], t => ([], t)
  | f :: fs, t =>
    let (r, t) := t.send f
    let (rs, t') := sendAll fs t
    ((r, t.bytesSent) :: rs, t')

end Transport

end CounterTrace
