import CounterTrace.Buffer
import CounterTrace.Buffer.Record

/-!
# Buffer pools

A pool owns a fixed number of buffers.  Free ones wait in one queue, completed ones in another;
every other buffer is active on a core or on loan to the consumer.  A pool that is shut down hands
out no free buffer, and its consumer sees the end once the completed buffers are gone.

    free + full + in use = capacity          as long as every buffer comes back once
-/

namespace CounterTrace

/-- The free and the completed buffers, each in the order in which they came. -/
structure Pool where
  capacity : Nat
  free : List Buffer
  full : List Buffer := []
  shutdown : Bool := false
  deriving Repr

/-- How many buffers are where. -/
structure Occupancy where
  capacity : Nat
  free : Nat
  full : Nat
  deriving DecidableEq, Repr

/-- Buffers that are neither free nor completed. -/
def Occupancy.inUse (o : Occupancy) : Nat := o.capacity - (o.free + o.full)

/-- What a consumer gets when it asks for the next completed buffer. -/
inductive Drained where
  | buffer (b : Buffer)
  | ended
  | wouldBlock
  deriving Repr

/-- What a consumer gets when it asks for the next completed buffer as a record. -/
inductive RecordDrain where
  | written (length : Nat)
  | refused (error : RecordError)
  | wouldBlock
  deriving Repr

namespace Pool

/-- A pool with all its buffers free. -/
def new (capacity : Nat) : Pool where
  capacity := capacity
  free := List.replicate capacity Buffer.new

/-- Takes the oldest free buffer. -/
def acquire (p : Pool) : Option Buffer × Pool :=
  if p.shutdown then (none, p)
  else
    match p.free with
    | [] => (none, p)
    | b :: rest => (some b, { p with free := rest })

def publish (p : Pool) (b : Buffer) : Pool := { p with full := p.full ++ [b] }

/-- Clears a buffer and puts it with the free ones. -/
def release (p : Pool) (b : Buffer) : Pool := { p with free := p.free ++ [b.reset 0] }

/-- Takes the oldest completed buffer if there is one. -/
def tryDrain (p : Pool) : Option Buffer × Pool :=
  match p.full with
  | [] => (none, p)
  | b :: rest => (some b, { p with full := rest })

/-- Takes the oldest completed buffer.  Without one, the answer depends on whether one may still
come. -/
def drain (p : Pool) : Drained × Pool :=
  match p.tryDrain with
  | (some b, p) => (.buffer b, p)
  | (none, p) => (if p.shutdown then .ended else .wouldBlock, p)

/-- Takes every completed buffer, oldest first, giving each back before the next is taken. -/
def drainAll (p : Pool) : List Buffer × Pool :=
  (p.full, p.full.foldl release { p with full := [] })

/-- Copies the oldest completed buffer into a destination as a record and gives the buffer back.  A
destination that is too short is refused first of all; at the end nothing is written. -/
def drainRecord (p : Pool) (dst : List UInt8) : RecordDrain × List UInt8 × Pool :=
  if dst.length < recordSize then (.refused (.shortRead dst.length), dst, p)
  else
    match p.drain with
    | (.buffer b, p) =>
      match b.writeRecord dst with
      | (.ok n, dst) => (.written n, dst, p.release b)
      | (.error e, dst) => (.refused e, dst, p.release b)
    | (.ended, p) => (.written 0, dst, p)
    | (.wouldBlock, p) => (.wouldBlock, dst, p)

def close (p : Pool) : Pool := { p with shutdown := true }

def reopen (p : Pool) : Pool := { p with shutdown := false }

def occupancy (p : Pool) : Occupancy := ⟨p.capacity, p.free.length, p.full.length⟩

end Pool

end CounterTrace
