import CounterTrace.Proofs.Buffer.Rereading

/-!
# Blocks

A reader uses up its bytes in blocks of 4092, in whatever pieces they arrive and whatever it finds in
them.  A block is read into a buffer of its own or into one that is kept, which makes no difference
to the reader.

    (afterCalls (r, b) calls).1 bytes = r bytes, without calls.length * 4092      (bytes_afterCalls)

So every call reads the block that its number says, whichever calls were made before it and however
they ended, or finds the end if there is no such block                        (calls_read_blocks).
-/

namespace CounterTrace

open Bytes

/-- Asking for bytes uses them up, or all there are. -/
theorem Bytes.Supply.bytes_fill (n : Nat) (s : Supply) :
    (s.fill n).2.bytes = s.bytes.drop n ∧ (s.fill n).2.failure = s.failure := by
  have hleft := (gather_flatten n s.pieces).2
  simp only [fill]
  split
  · exact ⟨hleft, rfl⟩
  · split
    · exact ⟨hleft, rfl⟩
    · exact ⟨hleft, rfl⟩

namespace RecordReader

/-! ## One call -/

/-- The two ways to read: into a buffer of its own, or into the one that is kept. -/
inductive Call where
  | next
  | readInto
  deriving DecidableEq, Repr

/-- The reader and the kept buffer after a call. -/
def afterCall (state : RecordReader × Buffer) : Call → RecordReader × Buffer
  | .next => (state.1.next.2, state.2)
  | .readInto => ((state.1.readInto state.2).2.2, (state.1.readInto state.2).2.1)

theorem readInto_reader (r : RecordReader) (b : Buffer) :
    (r.readInto b).2.2 = ⟨(r.supply.fill recordSize).2⟩ := by
  unfold readInto
  split
  · next bytes rest hfill =>
    rw [hfill]
    split
    · rfl
    · rfl
  · next rest hfill => rw [hfill]
  · next message rest hfill => rw [hfill]

theorem next_reader (r : RecordReader) : r.next.2 = ⟨(r.supply.fill recordSize).2⟩ := by
  rw [← r.readInto_reader Buffer.new, next]
  split
  · next hread => rw [hread]
  · next hread => rw [hread]
  · next hread => rw [hread]

/-- Either way one block is used up. -/
theorem afterCall_reader (state : RecordReader × Buffer) (call : Call) :
    (afterCall state call).1 = ⟨(state.1.supply.fill recordSize).2⟩ := by
  cases call with
  | next => exact state.1.next_reader
  | readInto => exact state.1.readInto_reader state.2

/-! ## A block -/

/-- Why a block is refused that counts too many samples. -/
def blockFailure (f : RecordFields) : Failure :=
  .within "decoding buffer record" (.cause (RecordError.invalidCount f.count).message)

section
variable {r : RecordReader} {f : RecordFields} {rest : List UInt8}
  (h : r.supply.bytes = f.bytes ++ rest) (b : Buffer)
include h

theorem readInto_of_room (hcount : f.count.toNat ≤ bufferCapacity) :
    ∃ b' r', r.readInto b = (.record, b', r') ∧ b'.contents = (f.core, f.samples) := by
  obtain ⟨supply', hfill, -⟩ := r.supply.fill_append f.length_bytes h
  obtain ⟨b', hread, hcontents⟩ := b.readRecord_of_room hcount []
  rw [List.append_nil] at hread
  exact ⟨b', ⟨supply'⟩, by simp only [readInto, hfill, hread], hcontents⟩

theorem readInto_of_no_room (hcount : ¬ f.count.toNat ≤ bufferCapacity) :
    ∃ r', r.readInto b = (.failed (blockFailure f), b, r') := by
  obtain ⟨supply', hfill, -⟩ := r.supply.fill_append f.length_bytes h
  have hread := Buffer.readRecord_of_no_room hcount b []
  rw [List.append_nil] at hread
  refine ⟨⟨supply'⟩, ?_⟩
  simp only [readInto, hfill, hread]
  rfl

end

theorem readInto_of_short {r : RecordReader} (hshort : r.supply.bytes.length < recordSize)
    (hfailure : r.supply.failure = none) (b : Buffer) :
    ∃ r', r.readInto b = (.ended, b, r') := by
  obtain ⟨rest, hfill⟩ := r.supply.fill_of_short hshort hfailure
  refine ⟨⟨rest⟩, ?_⟩
  simp only [readInto, hfill]

/-! ## Any number of calls -/

def afterCalls (state : RecordReader × Buffer) (calls : List Call) : RecordReader × Buffer :=
  calls.foldl afterCall state

theorem bytes_afterCalls (state : RecordReader × Buffer) (calls : List Call) :
    (afterCalls state calls).1.supply.bytes =
        state.1.supply.bytes.drop (calls.length * recordSize) ∧
      (afterCalls state calls).1.supply.failure = state.1.supply.failure := by
  induction calls generalizing state with
  | nil => exact ⟨by rw [List.length_nil, Nat.zero_mul, List.drop_zero]; rfl, rfl⟩
  | cons call calls ih =>
    obtain ⟨hbytes, hfailure⟩ := state.1.supply.bytes_fill recordSize
    obtain ⟨hrest, hsame⟩ := ih (afterCall state call)
    rw [afterCall_reader] at hrest hsame
    have hblocks : recordSize + calls.length * recordSize =
        (call :: calls).length * recordSize := by
      rw [List.length_cons, Nat.succ_mul, Nat.add_comm]
    refine ⟨?_, hsame.trans hfailure⟩
    rw [← hblocks, ← List.drop_drop, ← hbytes]
    exact hrest

/-- **Every call reads its block.**  Bytes come in any pieces, and some calls were made before, each
into a buffer of its own or into the kept one.  If the bytes have another block of 4092, a call into
a buffer of its own gives the core and the samples of that block, and a call into the kept buffer
puts the same in there, unless the block counts more samples than there is room for: then both fail
alike and the kept buffer stays as it was.  If the bytes have no other block, both find the end, and
the kept buffer stays as it was. -/
theorem calls_read_blocks (pieces : List (List UInt8)) (b : Buffer) (calls : List Call) :
    let (r, kept) := afterCalls (⟨⟨pieces, none⟩⟩, b) calls
    let start := calls.length * 4092
    (start + 4092 ≤ pieces.flatten.length →
      ∃ f : RecordFields, (pieces.flatten.drop start).take 4092 = f.bytes ∧
        (f.count.toNat ≤ 102 → ∃ own kept' r' r'',
          r.next = (.ok (some own), r') ∧ own.contents = (f.core, f.samples) ∧
          r.readInto kept = (.record, kept', r'') ∧ kept'.contents = (f.core, f.samples)) ∧
        (102 < f.count.toNat → ∃ r' r'',
          r.next = (.error (blockFailure f), r') ∧
          r.readInto kept = (.failed (blockFailure f), kept, r''))) ∧
    (pieces.flatten.length < start + 4092 → ∃ r' r'',
      r.next = (.ok none, r') ∧ r.readInto kept = (.ended, kept, r'')) := by
  obtain ⟨hbytes, hfailure⟩ := bytes_afterCalls (⟨⟨pieces, none⟩⟩, b) calls
  generalize afterCalls (⟨⟨pieces, none⟩⟩, b) calls = state at hbytes hfailure
  obtain ⟨r, kept⟩ := state
  have hrest : r.supply.bytes = pieces.flatten.drop (calls.length * 4092) := hbytes
  have hlength := congrArg List.length hrest
  rw [List.length_drop] at hlength
  have hsize : recordSize = 4092 := rfl
  refine ⟨fun hblock => ?_, fun hend => ?_⟩
  · have hlong : recordSize ≤ r.supply.bytes.length := by omega
    obtain ⟨f, rest, hf⟩ := RecordFields.exists_of hlong
    refine ⟨f, ?_, fun hroom => ?_, fun hfull => ?_⟩
    · rw [← hrest, hf]
      exact List.take_left' f.length_bytes
    · obtain ⟨own, r', hown, howns⟩ := readInto_of_room hf Buffer.new hroom
      obtain ⟨kept', r'', hkept, hkepts⟩ := readInto_of_room hf kept hroom
      exact ⟨own, kept', r', r'', by simp only [next, hown], howns, hkept, hkepts⟩
    · have hno : ¬ f.count.toNat ≤ bufferCapacity := Nat.not_le.2 hfull
      obtain ⟨r', hown⟩ := readInto_of_no_room hf Buffer.new hno
      obtain ⟨r'', hkept⟩ := readInto_of_no_room hf kept hno
      exact ⟨r', r'', by simp only [next, hown], hkept⟩
  · have hshort : r.supply.bytes.length < recordSize := by omega
    obtain ⟨r', hown⟩ := readInto_of_short hshort hfailure Buffer.new
    obtain ⟨r'', hkept⟩ := readInto_of_short hshort hfailure kept
    exact ⟨r', r'', by simp only [next, hown], hkept⟩

end RecordReader

end CounterTrace
