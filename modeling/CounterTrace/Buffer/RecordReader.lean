import CounterTrace.Buffer.Record
import CounterTrace.Bytes.Supply
import CounterTrace.Failure

/-!
# Reading records

A record reader takes one record after the other from a byte supply.  A record that does not
decode has been used up all the same, so the reader stays aligned; bytes at the end that make no
whole record count as the end.
-/

namespace CounterTrace

open Bytes

/-- A supply that is read record by record. -/
structure RecordReader where
  supply : Supply
  deriving DecidableEq, Repr

/-- What one read gave. -/
inductive RecordRead where
  | record
  | ended
  | failed (failure : Failure)
  deriving DecidableEq, Repr

namespace RecordReader

/-- Reads the next record into a buffer, which changes only if a whole good record was there. -/
def readInto (r : RecordReader) (b : Buffer) : RecordRead × Buffer × RecordReader :=
  match r.supply.fill recordSize with
  | (.filled bytes, rest) =>
    match b.readRecord bytes with
    | (.ok (), b) => (.record, b, ⟨rest⟩)
    | (.error e, b) => (.failed (.within "decoding buffer record" (.cause e.message)), b, ⟨rest⟩)
  | (.ended, rest) => (.ended, b, ⟨rest⟩)
  | (.failed m, rest) => (.failed (.within "reading buffer record" (.cause m)), b, ⟨rest⟩)

/-- The next record as a buffer of its own, `none` at the end. -/
def next (r : RecordReader) : Except Failure (Option Buffer) × RecordReader :=
  match r.readInto Buffer.new with
  | (.record, b, r) => (.ok (some b), r)
  | (.ended, _, r) => (.ok none, r)
  | (.failed f, _, r) => (.error f, r)

theorem next_bytes_lt {r r' : RecordReader} {b : Buffer} (h : r.next = (.ok (some b), r')) :
    r'.supply.bytes.length < r.supply.bytes.length := by
  unfold next at h
  split at h
  · next b' r2 hr =>
    simp only [Prod.mk.injEq, Except.ok.injEq, Option.some.injEq] at h
    obtain ⟨-, rfl⟩ := h
    unfold readInto at hr
    split at hr
    · next bytes rest hf =>
      have := Supply.fill_filled_length hf
      have hs : recordSize = 4092 := rfl
      split at hr
      · simp only [Prod.mk.injEq] at hr
        obtain ⟨-, -, rfl⟩ := hr
        simp only
        omega
      · simp at hr
    · simp at hr
    · simp at hr
  · simp at h
  · simp at h

/-- All records up to the end or the first failure, which is the last item. -/
def readAll (r : RecordReader) : List (Except Failure Buffer) :=
  match _h : r.next with
  | (.ok none, _) => []
  | (.error f, _) => [.error f]
  | (.ok (some b), r') => .ok b :: r'.readAll
termination_by r.supply.bytes.length
decreasing_by exact next_bytes_lt _h

end RecordReader

end CounterTrace
