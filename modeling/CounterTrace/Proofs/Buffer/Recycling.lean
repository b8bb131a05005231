import CounterTrace.Proofs.Buffer.Rereading

/-!
# Recycled buffers

A buffer is used again and again, and the slots past its count keep samples of earlier uses.  None
of them is ever seen again: what a buffer shows after any uses depends on what it showed before.

    b.contents = b'.contents → (b.useAll uses).contents = (b'.useAll uses).contents
                                                                  (contents_useAll)

A record is made of what the buffer shows, so two buffers that show the same have the same record
(`writeRecord_congr`).
-/

namespace CounterTrace

/-- What changes a buffer. -/
inductive BufferUse where
  | reset (core : UInt32)
  | push (s : Sample)
  | read (bytes : List UInt8)
  deriving DecidableEq, Repr

namespace Buffer

/-- Uses a buffer.  Bytes that are no record leave it as it was. -/
def use (b : Buffer) : BufferUse → Buffer
  | .reset core => b.reset core
  | .push s => b.push s
  | .read bytes => (b.readRecord bytes).2

def useAll (uses : List BufferUse) (b : Buffer) : Buffer := uses.foldl use b

/-! ## Contents -/

theorem contents_reset (b : Buffer) (core : UInt32) : (b.reset core).contents = (core, []) :=
  Prod.ext rfl (b.samples_reset core)

theorem contents_push (b : Buffer) (s : Sample) :
    (b.push s).contents =
      if b.samples.length < bufferCapacity then (b.core, b.samples ++ [s]) else b.contents := by
  by_cases hroom : b.samples.length < bufferCapacity
  · have hfull : b.isFull = false := by
      rw [length_samples] at hroom
      rw [isFull, decide_eq_false_iff_not]
      omega
    rw [if_pos hroom, contents, core_push, samples_push hfull]
  · have hfull : b.isFull = true := by
      rw [length_samples] at hroom
      rw [isFull, decide_eq_true_iff]
      omega
    rw [if_neg hroom, push_of_full hfull]

/-- What is to see after reading depends on the bytes, or on what was to see before. -/
theorem contents_readRecord {b b' : Buffer} {bytes : List UInt8}
    (h : (b.readRecord bytes).1 = .ok () ∨ b.contents = b'.contents) :
    (b.readRecord bytes).2.contents = (b'.readRecord bytes).2.contents := by
  rcases readRecord_cases bytes with ⟨e, hrefused⟩ | ⟨contents, htaken⟩
  · rw [hrefused b] at h ⊢
    rw [hrefused b']
    exact h.resolve_left nofun
  · obtain ⟨c, hread, hc⟩ := htaken b
    obtain ⟨c', hread', hc'⟩ := htaken b'
    rw [hread, hread']
    exact hc.trans hc'.symm

/-- What a use leaves to see depends on what was to see. -/
theorem contents_use {b b' : Buffer} (h : b.contents = b'.contents) (u : BufferUse) :
    (b.use u).contents = (b'.use u).contents := by
  obtain ⟨hcore, hsamples⟩ := Prod.mk.inj h
  cases u with
  | reset core => exact (b.contents_reset core).trans (b'.contents_reset core).symm
  | push s => rw [use, use, contents_push, contents_push, hcore, hsamples, h]
  | read bytes => exact contents_readRecord (.inr h)

theorem contents_useAll {b b' : Buffer} (h : b.contents = b'.contents) (uses : List BufferUse) :
    (b.useAll uses).contents = (b'.useAll uses).contents := by
  induction uses generalizing b b' with
  | nil => exact h
  | cons u uses ih => exact ih (contents_use h u)

/-- Buffers that show the same are written as the same record. -/
theorem writeRecord_congr {b b' : Buffer} (h : b.contents = b'.contents) (dst : List UInt8) :
    b.writeRecord dst = b'.writeRecord dst := by
  have himage := recordImage_of_contents h
  have himage' := recordImage_of_contents (show b'.contents = b'.contents from rfl)
  rw [writeRecord, writeRecord, himage, himage']

/-! ## Records -/

/-- **A record shows what its buffer shows and nothing else.**  Writing succeeds if and only if the
destination has at least 4092 bytes, and overwrites just these; a shorter one stays as it was.  The
record gives core and samples back to any buffer that reads it.  Buffers that show the same have the
same record, now and after any further uses, and so has a buffer that is cleared, or that takes over
a record, and one that was never used before. -/
theorem record_shows_contents (b : Buffer) (dst : List UInt8) :
    ((∃ n, (b.writeRecord dst).1 = .ok n) ↔ 4092 ≤ dst.length) ∧
      (4092 ≤ dst.length → ∃ image : List UInt8, image.length = 4092 ∧
        b.writeRecord dst = (.ok 4092, image ++ dst.drop 4092) ∧
        ∀ (into : Buffer) (rest : List UInt8), ∃ b',
          into.readRecord (image ++ rest) = (.ok (), b') ∧
            b'.core = b.core ∧ b'.samples = b.samples) ∧
      (dst.length < 4092 → b.writeRecord dst = (.error (.shortRead dst.length), dst)) ∧
      ∀ uses : List BufferUse,
        (∀ b' : Buffer, b'.core = b.core → b'.samples = b.samples →
          (b'.useAll uses).writeRecord dst = (b.useAll uses).writeRecord dst) ∧
        (∀ core, ((b.reset core).useAll uses).writeRecord dst =
          ((new.reset core).useAll uses).writeRecord dst) ∧
        ∀ bytes, (b.readRecord bytes).1 = .ok () →
          ((b.readRecord bytes).2.useAll uses).writeRecord dst =
            ((new.readRecord bytes).2.useAll uses).writeRecord dst := by
  refine ⟨?_, fun hlong => ?_, fun hshort => writeRecord_of_lt hshort b, fun uses => ⟨?_, ?_, ?_⟩⟩
  · constructor
    · rintro ⟨n, hn⟩
      refine Nat.not_lt.1 fun hshort => ?_
      rw [writeRecord_of_lt hshort] at hn
      cases hn
    · intro hlong
      exact ⟨recordSize, by rw [writeRecord_of_le hlong]⟩
  · refine ⟨b.recordImage, b.length_recordImage, writeRecord_of_le hlong b, fun into rest => ?_⟩
    obtain ⟨b', hread, hcontents⟩ := into.readRecord_image b rest
    obtain ⟨hcore, hsamples⟩ := Prod.mk.inj hcontents
    exact ⟨b', hread, hcore, hsamples⟩
  · intro b' hcore hsamples
    exact writeRecord_congr (contents_useAll (Prod.ext hcore hsamples) uses) dst
  · intro core
    have hcleared := (b.contents_reset core).trans (new.contents_reset core).symm
    exact writeRecord_congr (contents_useAll hcleared uses) dst
  · intro bytes hok
    exact writeRecord_congr (contents_useAll (contents_readRecord (.inl hok)) uses) dst

/-- A buffer that held two samples before it was cleared. -/
def usedBefore : Buffer :=
  new.useAll [.push { Sample.zero with pid := 9 }, .push { Sample.zero with pid := 9 }, .reset 7,
    .push { Sample.zero with pid := 40 }]

/-- A buffer that was not used before. -/
def usedOnce : Buffer := new.useAll [.reset 7, .push { Sample.zero with pid := 40 }]

theorem record_shows_contents_recycled :
    usedBefore.slots[1].pid = 9 ∧ usedOnce.slots[1].pid = 0 ∧ usedBefore.core = usedOnce.core ∧
      usedBefore.samples = usedOnce.samples ∧
      ∃ image : List UInt8, image.length = 4092 ∧
        usedOnce.writeRecord (List.replicate 4094 1) = (.ok 4092, image ++ [1, 1]) ∧
        usedBefore.writeRecord (List.replicate 4094 1) = (.ok 4092, image ++ [1, 1]) := by
  have hlong : 4092 ≤ (List.replicate 4094 (1 : UInt8)).length := by
    rw [List.length_replicate]
    omega
  have hcore : usedBefore.core = usedOnce.core := by decide
  have hsamples : usedBefore.samples = usedOnce.samples := by decide
  obtain ⟨-, hwrite, -, hsame⟩ := record_shows_contents usedOnce (List.replicate 4094 1)
  obtain ⟨image, hlength, hwritten, -⟩ := hwrite hlong
  have hdrop : (List.replicate 4094 (1 : UInt8)).drop 4092 = [1, 1] := by
    rw [List.drop_replicate]
    rfl
  rw [hdrop] at hwritten
  exact ⟨by decide, by decide, hcore, hsamples, image, hlength, hwritten,
    ((hsame []).1 usedBefore hcore hsamples).trans hwritten⟩

end Buffer

end CounterTrace
