import CounterTrace.Proofs.Buffer.Image

/-!
# Records of any bytes

Any 4092 bytes are a record as far as its fields go, so any bytes are taken over by a buffer if
there are enough of them and their count is one that a buffer can have, and refused without a trace
if not.

    4092 ≤ bytes.length → ∃ f rest, bytes = f.bytes ++ rest          (RecordFields.exists_of)

Written again, a record that was taken over has zeros in all places that are not read.

    keepOnly (RecordShows count) 0 f.bytes = the record of f's core and samples  (keepOnly_bytes)
-/

namespace CounterTrace

open Bytes

/-! ## Fields -/

/-- Any forty bytes are a slot. -/
theorem Sample.exists_paddedImage {bs : List UInt8} (h : bs.length = slotSize) :
    ∃ slot : Sample × UInt32, slot.1.paddedImage slot.2 = bs := by
  rw [slotSize] at h
  have height : (bs.take 8).length = 8 := by rw [List.length_take]; omega
  have hfour : ((bs.drop 8).take 4).length = 4 ∧ ((bs.drop 12).take 4).length = 4 := by
    simp only [List.length_take, List.length_drop]
    omega
  have hback : (bs.drop 16).length = maxCounters * 4 := by
    rw [List.length_drop, maxCounters]
    omega
  obtain ⟨cycles, hcycles⟩ := exists_le64 height
  obtain ⟨pid, hpid⟩ := exists_le32 hfour.1
  obtain ⟨pad, hpad⟩ := exists_le32 hfour.2
  obtain ⟨counters, hlength, hcounters⟩ := exists_items exists_le32 hback
  refine ⟨(⟨cycles, pid, ⟨⟨counters⟩, hlength⟩⟩, pad), ?_⟩
  change le64 cycles ++ le32 pid ++ le32 pad ++ counters.flatMap le32 = bs
  rw [hcycles, hpid, hpad, hcounters, ← List.take_add, ← List.take_add, List.take_append_drop]

/-- Bytes that are enough for a record begin with one. -/
theorem RecordFields.exists_of {bs : List UInt8} (h : recordSize ≤ bs.length) :
    ∃ (f : RecordFields) (rest : List UInt8), bs = f.bytes ++ rest := by
  have hsize : recordSize = 12 + bufferCapacity * slotSize := rfl
  have hfront : (bs.take 12).length = 3 * 4 := by rw [List.length_take]; omega
  have hback : ((bs.drop 12).take (bufferCapacity * slotSize)).length =
      bufferCapacity * slotSize := by
    rw [List.length_take, List.length_drop]
    omega
  obtain ⟨words, hwords, hheader⟩ := exists_items exists_le32 hfront
  obtain ⟨slots, hslots, hbody⟩ := exists_items Sample.exists_paddedImage hback
  obtain ⟨core, count, reserved, rfl⟩ : ∃ core count reserved, words = [core, count, reserved] := by
    match words, hwords with
    | [core, count, reserved], _ => exact ⟨core, count, reserved, rfl⟩
  have hparts : le32 core ++ le32 count ++ le32 reserved = bs.take 12 := by
    rw [← hheader]
    simp
  refine ⟨⟨core, count, reserved, slots, hslots⟩, (bs.drop 12).drop (bufferCapacity * slotSize), ?_⟩
  rw [bytes, body, hparts, hbody, List.append_assoc, List.take_append_drop, List.take_append_drop]

/-- Bytes are refused by every buffer, or they give every buffer the same contents. -/
theorem Buffer.readRecord_cases (bytes : List UInt8) :
    (∃ e, ∀ b : Buffer, b.readRecord bytes = (.error e, b)) ∨
      ∃ contents, ∀ b : Buffer, ∃ b' : Buffer,
        b.readRecord bytes = (.ok (), b') ∧ b'.contents = contents := by
  by_cases hlong : recordSize ≤ bytes.length
  · obtain ⟨f, rest, rfl⟩ := RecordFields.exists_of hlong
    by_cases hcount : f.count.toNat ≤ bufferCapacity
    · exact .inr ⟨_, fun b => b.readRecord_of_room hcount rest⟩
    · exact .inl ⟨_, fun b => b.readRecord_of_no_room hcount rest⟩
  · exact .inl ⟨_, readRecord_of_short (Nat.not_le.1 hlong)⟩

/-! ## What a record shows -/

section
variable {keep : Nat → Prop} [DecidablePred keep]

/-- The bytes from an offset on, zero in all places that are not kept. -/
def keepOnly (keep : Nat → Prop) [DecidablePred keep] (offset : Nat) (bs : List UInt8) :
    List UInt8 :=
  (bs.zipIdx offset).map fun (b, i) => if keep i then b else 0

theorem keepOnly_append (offset : Nat) (bs more : List UInt8) :
    keepOnly keep offset (bs ++ more) =
      keepOnly keep offset bs ++ keepOnly keep (offset + bs.length) more := by
  rw [keepOnly, List.zipIdx_append, List.map_append]
  rfl

theorem keepOnly_of_kept {offset : Nat} {bs : List UInt8}
    (h : ∀ i, offset ≤ i → i < offset + bs.length → keep i) : keepOnly keep offset bs = bs := by
  induction bs generalizing offset with
  | nil => rfl
  | cons b bs ih =>
    rw [List.length_cons] at h
    have hfirst : keep offset := h offset (by omega) (by omega)
    have hrest : keepOnly keep (offset + 1) bs = bs :=
      ih fun i hi hi' => h i (by omega) (by omega)
    rw [keepOnly, List.zipIdx_cons, List.map_cons]
    simp only [hfirst, if_true]
    exact congrArg (b :: ·) hrest

theorem keepOnly_of_cleared {offset : Nat} {bs : List UInt8}
    (h : ∀ i, offset ≤ i → i < offset + bs.length → ¬ keep i) :
    keepOnly keep offset bs = List.replicate bs.length 0 := by
  induction bs generalizing offset with
  | nil => rfl
  | cons b bs ih =>
    rw [List.length_cons] at h
    have hfirst : ¬ keep offset := h offset (by omega) (by omega)
    have hrest : keepOnly keep (offset + 1) bs = List.replicate bs.length 0 :=
      ih fun i hi hi' => h i (by omega) (by omega)
    rw [keepOnly, List.zipIdx_cons, List.map_cons, List.length_cons, List.replicate_succ]
    simp only [hfirst, if_false]
    exact congrArg (0 :: ·) hrest

end

/-- The places of a record that are read: the core, the count and, of each of as many slots, all but
the pad word. -/
def RecordShows (count offset : Nat) : Prop :=
  offset < 8 ∨ 12 ≤ offset ∧ (offset - 12) / 40 < count ∧
    ¬ (12 ≤ (offset - 12) % 40 ∧ (offset - 12) % 40 < 16)

instance (count : Nat) : DecidablePred (RecordShows count) :=
  fun _ => inferInstanceAs (Decidable (_ ∨ _ ∧ _ ∧ ¬ (_ ∧ _)))

namespace RecordFields

/-- Of a slot that is counted the pad word is cleared, of any other everything. -/
theorem keepOnly_slot (count k : Nat) (s : Sample) (pad : UInt32) :
    keepOnly (RecordShows count) (12 + k * slotSize) (s.paddedImage pad) =
      Buffer.slotBytes count s k := by
  have hlength := s.length_paddedImage pad
  rw [slotSize] at hlength ⊢
  by_cases hk : k < count
  · have hfront : keepOnly (RecordShows count) (12 + k * 40) (le64 s.cycles ++ le32 s.pid) =
        le64 s.cycles ++ le32 s.pid := by
      refine keepOnly_of_kept fun i hi hi' => .inr ?_
      simp only [List.length_append, length_le64, length_le32] at hi'
      omega
    have hpad : keepOnly (RecordShows count) (12 + k * 40 + 12) (le32 pad) = le32 0 := by
      refine keepOnly_of_cleared fun i hi hi' => ?_
      rw [length_le32] at hi'
      rw [RecordShows]
      omega
    have hback : keepOnly (RecordShows count) (12 + k * 40 + 16)
        (s.counters.toList.flatMap le32) = s.counters.toList.flatMap le32 := by
      refine keepOnly_of_kept fun i hi hi' => .inr ?_
      simp only [Sample.paddedImage, List.length_append, length_le64, length_le32] at hlength
      omega
    have htwelve : (le64 s.cycles ++ le32 s.pid).length = 12 := rfl
    have hsixteen : (le64 s.cycles ++ le32 s.pid ++ le32 pad).length = 16 := rfl
    rw [Sample.paddedImage, keepOnly_append, keepOnly_append, hfront, htwelve, hsixteen, hpad,
      hback, Buffer.slotBytes, if_pos hk]
    rfl
  · rw [Buffer.slotBytes, if_neg hk, keepOnly_of_cleared, hlength]
    · rfl
    · intro i hi hi'
      rw [RecordShows]
      omega

theorem keepOnly_slots (count : Nat) (slots : List (Sample × UInt32)) (k : Nat) :
    keepOnly (RecordShows count) (12 + k * slotSize)
        (slots.flatMap fun slot => slot.1.paddedImage slot.2) =
      ((slots.map Prod.fst).zipIdx k).flatMap fun (s, i) => Buffer.slotBytes count s i := by
  induction slots generalizing k with
  | nil => rfl
  | cons slot slots ih =>
    have hnext : 12 + k * slotSize + slotSize = 12 + (k + 1) * slotSize := by
      rw [Nat.succ_mul, Nat.add_assoc]
    rw [List.flatMap_cons, keepOnly_append, keepOnly_slot, slot.1.length_paddedImage, hnext, ih,
      List.map_cons, List.zipIdx_cons, List.flatMap_cons]

/-- Of a record the places that are read make the record of a buffer. -/
theorem keepOnly_bytes (f : RecordFields) :
    keepOnly (RecordShows f.count.toNat) 0 f.bytes =
      le32 f.core ++ le32 f.count ++ le32 0 ++
        (f.samples.flatMap Sample.slotImage ++
          List.replicate ((bufferCapacity - f.count.toNat) * slotSize) 0) := by
  have hfront : keepOnly (RecordShows f.count.toNat) 0 (le32 f.core ++ le32 f.count) =
      le32 f.core ++ le32 f.count := by
    refine keepOnly_of_kept fun i _ hi => .inl ?_
    simpa using hi
  have hreserved : keepOnly (RecordShows f.count.toNat) 8 (le32 f.reserved) = le32 0 := by
    refine keepOnly_of_cleared fun i hi hi' => ?_
    rw [length_le32] at hi'
    rw [RecordShows]
    omega
  have hbody := keepOnly_slots f.count.toNat f.slots 0
  rw [Nat.zero_mul, Buffer.flatMap_slotBytes, List.length_map, f.length_slots, Nat.sub_zero,
    ← List.map_take] at hbody
  have height : 0 + (le32 f.core ++ le32 f.count).length = 8 := rfl
  have htwelve : 0 + (le32 f.core ++ le32 f.count ++ le32 f.reserved).length = 12 + 0 := rfl
  rw [bytes, keepOnly_append, keepOnly_append, hfront, height, hreserved, htwelve, body, hbody]
  rfl

end RecordFields

/-! ## Any bytes -/

/-- The number that bytes stand for, the lowest byte first. -/
def littleEndian : List UInt8 → Nat
  | [] => 0
  | b :: bs => b.toNat + 256 * littleEndian bs

theorem littleEndian_le32 (w : UInt32) : littleEndian (le32 w) = w.toNat := by
  have hw := w.toNat_lt
  simp only [le32, littleEndian, byteAt, UInt8.toNat_ofNat']
  omega

/-- The count that a record declares. -/
def recordCount (bytes : List UInt8) : Nat := littleEndian ((bytes.drop 4).take 4)

theorem recordCount_bytes (f : RecordFields) (rest : List UInt8) :
    recordCount (f.bytes ++ rest) = f.count.toNat := by
  rw [← littleEndian_le32 f.count, RecordFields.bytes]
  rfl

/-- **Any bytes are a record or leave the buffer alone.**  Bytes are taken over if and only if there
are 4092 of them and the count they declare is at most 102; otherwise the buffer stays as it was in
every slot.  A buffer that took them over is written as these bytes with zeros for the reserved
word, for the pad of every slot that counts and for all slots that do not.  What comes after the
4092 bytes makes no difference. -/
theorem readRecord_rewritten (b : Buffer) (bytes : List UInt8) :
    ((b.readRecord bytes).1 = .ok () ↔ 4092 ≤ bytes.length ∧ recordCount bytes ≤ 102) ∧
      ((b.readRecord bytes).1 ≠ .ok () → (b.readRecord bytes).2 = b) ∧
      ((b.readRecord bytes).1 = .ok () → ∀ dst, 4092 ≤ dst.length →
        (b.readRecord bytes).2.writeRecord dst =
          (.ok 4092, keepOnly (RecordShows (recordCount bytes)) 0 (bytes.take 4092) ++
            dst.drop 4092)) ∧
      (4092 ≤ bytes.length →
        ∀ more, b.readRecord (bytes.take 4092 ++ more) = b.readRecord bytes) := by
  by_cases hlong : 4092 ≤ bytes.length
  · obtain ⟨f, rest, rfl⟩ := RecordFields.exists_of hlong
    have htake : (f.bytes ++ rest).take 4092 = f.bytes := List.take_left' f.length_bytes
    have hsame : ∀ more, b.readRecord (f.bytes ++ more) = b.readRecord (f.bytes ++ rest) :=
      fun more => (b.readRecord_bytes f more).trans (b.readRecord_bytes f rest).symm
    rw [recordCount_bytes, htake]
    by_cases hcount : f.count.toNat ≤ bufferCapacity
    · obtain ⟨b', hread, hcontents⟩ := b.readRecord_of_room hcount rest
      rw [hread]
      refine ⟨⟨fun _ => ⟨hlong, hcount⟩, fun _ => rfl⟩, fun h => absurd rfl h, fun _ dst hdst => ?_,
        fun _ more => (hsame more).trans hread⟩
      have himage : b'.recordImage = keepOnly (RecordShows f.count.toNat) 0 f.bytes := by
        rw [Buffer.recordImage_of_contents hcontents, RecordFields.length_samples hcount,
          UInt32.ofNat_toNat, f.keepOnly_bytes]
      rw [b'.writeRecord_of_le hdst, himage]
      rfl
    · have hread := b.readRecord_of_no_room hcount rest
      rw [hread]
      exact ⟨⟨nofun, fun h => absurd h.2 hcount⟩, fun _ => rfl, nofun,
        fun _ more => (hsame more).trans hread⟩
  · rw [b.readRecord_of_short (Nat.not_le.1 hlong)]
    exact ⟨⟨nofun, fun h => absurd h.1 hlong⟩, fun _ => rfl, nofun, fun h => absurd h hlong⟩

/-- A record of one sample with something in every place that is not read. -/
def strayRecord : List UInt8 :=
  [5, 0, 0, 0, 1, 0, 0, 0, 9, 9, 9, 9] ++ List.replicate 40 7 ++ List.replicate 4040 7

/-- A record that declares one sample too many. -/
def overfullBytes : List UInt8 := [5, 0, 0, 0, 103] ++ List.replicate 4087 0

def twoHeld : Buffer :=
  (Buffer.new.reset 3).pushAll [{ Sample.zero with pid := 40 }, { Sample.zero with pid := 41 }]

theorem readRecord_rewritten_stray :
    (twoHeld.readRecord (strayRecord ++ [8, 8, 8])).1 = .ok () ∧
      (twoHeld.readRecord (strayRecord ++ [8, 8, 8])).2.writeRecord (List.replicate 4094 1) =
        (.ok 4092, [5, 0, 0, 0, 1, 0, 0, 0, 0, 0, 0, 0] ++ List.replicate 12 7 ++
          List.replicate 4 0 ++ List.replicate 24 7 ++ List.replicate 4040 0 ++ [1, 1]) ∧
      (twoHeld.readRecord overfullBytes).1 ≠ .ok () ∧
      (twoHeld.readRecord overfullBytes).2 = twoHeld := by
  have hlength : strayRecord.length = 4092 := by
    simp only [strayRecord, List.length_append, List.length_replicate, List.length_cons,
      List.length_nil]
  have hcleared : keepOnly (RecordShows 1) 0 strayRecord =
      [5, 0, 0, 0, 1, 0, 0, 0, 0, 0, 0, 0] ++ List.replicate 12 7 ++ List.replicate 4 0 ++
        List.replicate 24 7 ++ List.replicate 4040 0 := by
    have hused : keepOnly (RecordShows 1) 0
        ([5, 0, 0, 0, 1, 0, 0, 0, 9, 9, 9, 9] ++ List.replicate 40 7) =
        [5, 0, 0, 0, 1, 0, 0, 0, 0, 0, 0, 0] ++ List.replicate 12 7 ++ List.replicate 4 0 ++
          List.replicate 24 7 := by decide
    have hunused : keepOnly (RecordShows 1) 52 (List.replicate 4040 7) = List.replicate 4040 0 := by
      refine (keepOnly_of_cleared fun i hi _ => ?_).trans (by rw [List.length_replicate])
      rw [RecordShows]
      omega
    rw [strayRecord, keepOnly_append, hused]
    exact congrArg _ hunused
  obtain ⟨hok, -, hwritten, -⟩ := readRecord_rewritten twoHeld (strayRecord ++ [8, 8, 8])
  obtain ⟨hok', hkept, -, -⟩ := readRecord_rewritten twoHeld overfullBytes
  have hcount : recordCount (strayRecord ++ [8, 8, 8]) = 1 := by decide
  rw [hcount, List.take_left' hlength, hcleared] at hwritten
  have hread := hok.2 ⟨by rw [List.length_append, hlength]; omega, by rw [hcount]; decide⟩
  have hrefused : (twoHeld.readRecord overfullBytes).1 ≠ .ok () :=
    fun h => absurd (hok'.1 h).2 (by decide)
  refine ⟨hread, (hwritten hread (List.replicate 4094 1) ?_).trans ?_, hrefused, hkept hrefused⟩
  · rw [List.length_replicate]
    omega
  · rw [List.drop_replicate]
    rfl

end CounterTrace
