import CounterTrace.Buffer
import CounterTrace.Bytes.Word

/-!
# Buffer records

A buffer crosses the device boundary as a record of fixed size: the core, the count and a reserved
word, then one slot of 40 bytes for each of the buffer's slots (cycles, pid, a pad word and six
counters, all lowest byte first).  Slots past the count are written as zeros and are not read.

    b.writeRecord dst       changes the first 4092 bytes of `dst`, or nothing if `dst` is shorter
    b.readRecord bytes      takes over core and samples, or leaves `b` as it is
-/

namespace CounterTrace

open Bytes

def recordHeaderSize : Nat := 12

def slotSize : Nat := 40

def recordSize : Nat := recordHeaderSize + bufferCapacity * slotSize

/-- Why a record was not written or not read. -/
inductive RecordError where
  | shortRead (length : Nat)
  | truncated (length : Nat)
  | invalidCount (count : UInt32)
  deriving DecidableEq, Repr

def RecordError.message : RecordError → String
  | .shortRead n => s!"destination holds {n} bytes, a buffer record needs {recordSize}"
  | .truncated n => s!"record too short: {n} bytes"
  | .invalidCount n => s!"record declares {n} samples, capacity is {bufferCapacity}"

/-! ## Slots -/

namespace Sample

/-- The 40 bytes of a used slot. -/
def slotImage (s : Sample) : List UInt8 :=
  le64 s.cycles ++ le32 s.pid ++ le32 0 ++ s.counters.toList.flatMap le32

/-- Takes a slot from the front of a byte list. -/
def takeSlot (bs : List UInt8) : Option (Sample × List UInt8) := do
  let (cycles, bs) ← takeLE64 bs
  let (pid, bs) ← takeLE32 bs
  let (_, bs) ← takeLE32 bs
  let (counters, bs) ← takeWords takeLE32 maxCounters bs
  some (⟨cycles, pid, countersOf counters⟩, bs)

/-- Takes as many slots as asked; fewer if the bytes run out. -/
def takeSlots : Nat → List UInt8 → List Sample
  | 0, _ => []
  | n + 1, bs =>
    match takeSlot bs with
    | none => []
    | some (s, bs) => s :: takeSlots n bs

end Sample

/-! ## Records -/

namespace Buffer

/-- The bytes of the slot with number `i` that holds `s`. -/
def slotBytes (count : Nat) (s : Sample) (i : Nat) : List UInt8 :=
  if i < count then s.slotImage else List.replicate slotSize 0

def recordImage (b : Buffer) : List UInt8 :=
  le32 b.core ++ le32 (UInt32.ofNat b.count) ++ le32 0 ++
    b.slots.toList.zipIdx.flatMap fun (s, i) => slotBytes b.count s i

/-- Writes the record over the front of a destination.  Gives the number of bytes written, and the
destination as it is afterwards. -/
def writeRecord (b : Buffer) (dst : List UInt8) : Except RecordError Nat × List UInt8 :=
  if dst.length < recordSize then (.error (.shortRead dst.length), dst)
  else (.ok recordSize, b.recordImage ++ dst.drop recordSize)

/-- Puts samples into the first slots and keeps the others. -/
def overwrite (slots : Vector Sample bufferCapacity) (ss : List Sample) :
    Vector Sample bufferCapacity :=
  Vector.ofFn fun i => (ss[i.val]?).getD slots[i.val]

/-- Takes over the core and the samples of a record. -/
def readRecord (b : Buffer) (bytes : List UInt8) : Except RecordError Unit × Buffer :=
  if bytes.length < recordSize then (.error (.truncated bytes.length), b)
  else
    match takeWords takeLE32 3 bytes with
    | some ([core, count, _], body) =>
      if h : count.toNat ≤ bufferCapacity then
        (.ok (), ⟨core, count.toNat, overwrite b.slots (Sample.takeSlots count.toNat body), h⟩)
      else (.error (.invalidCount count), b)
    | _ => (.error (.truncated bytes.length), b)

end Buffer

end CounterTrace
