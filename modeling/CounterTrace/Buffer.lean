import CounterTrace.Sample

/-!
# Buffers

A buffer collects the samples of one core in a fixed number of slots.  Buffers are used again and
again: clearing one resets the count and leaves the slots as they are, so the slots past the count
hold samples of earlier uses, which `samples` never shows.

    (b.push s).samples = b.samples ++ [s]     unless b is full        (samples_push)
    (b.push s).samples = b.samples            if b is full            (push_of_full)
-/

namespace CounterTrace

def bufferCapacity : Nat := 102

/-- The samples of one core, in slots that are filled from the front. -/
structure Buffer where
  core : UInt32
  count : Nat
  slots : Vector Sample bufferCapacity
  count_le : count ≤ bufferCapacity := by decide
  deriving DecidableEq, Repr

namespace Buffer

/-! ## Operations -/

def new : Buffer where
  core := 0
  count := 0
  slots := Vector.replicate bufferCapacity Sample.zero

instance : Inhabited Buffer := ⟨new⟩

def reset (b : Buffer) (core : UInt32) : Buffer :=
  { b with core := core, count := 0, count_le := Nat.zero_le _ }

def isEmpty (b : Buffer) : Bool := b.count == 0

def isFull (b : Buffer) : Bool := bufferCapacity ≤ b.count

/-- Adds a sample.  A full buffer stays as it is. -/
def push (b : Buffer) (s : Sample) : Buffer :=
  if h : b.count < bufferCapacity then
    { b with count := b.count + 1, slots := b.slots.set b.count s h, count_le := h }
  else b

/-- The recorded samples, oldest first. -/
def samples (b : Buffer) : List Sample := b.slots.toList.take b.count

def pushAll (b : Buffer) (ss : List Sample) : Buffer := ss.foldl push b

/-! ## Lemmas -/

@[simp]
theorem samples_reset (b : Buffer) (core : UInt32) : (b.reset core).samples = [] := by
  simp [samples, reset]

@[simp]
theorem core_push (b : Buffer) (s : Sample) : (b.push s).core = b.core := by
  unfold push; split <;> rfl

theorem length_samples (b : Buffer) : b.samples.length = b.count := by
  have := b.count_le
  simp only [samples, List.length_take, Vector.length_toList]
  omega

theorem push_of_full {b : Buffer} (h : b.isFull) (s : Sample) : b.push s = b := by
  have : ¬ b.count < bufferCapacity := by simp [isFull] at h; omega
  simp [push, this]

theorem samples_push {b : Buffer} (h : b.isFull = false) (s : Sample) :
    (b.push s).samples = b.samples ++ [s] := by
  have hlt : b.count < bufferCapacity := by simp [isFull] at h; omega
  simp only [push, hlt, dite_true, samples, Vector.toList_set]
  rw [List.take_succ_eq_append_getElem (by simpa using hlt)]
  simp [List.take_set_of_le]

end Buffer

end CounterTrace
