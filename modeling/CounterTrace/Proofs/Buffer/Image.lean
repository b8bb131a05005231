import CounterTrace.Buffer.RecordReader

/-!
# Record images

A record has three words and 102 slots, whatever they hold.  Of its bytes the core and the samples
are read, if it does not count more of them than there is room for.

    b.readRecord (f.bytes ++ rest) = core and samples of f, or refused         (readRecord_bytes)

The record of a buffer is made of its core and its samples alone, and reading it gives both back,
whatever buffer it is read into and whatever bytes come after it.

    b.recordImage = core, count, 0, the samples, zeros up to 4092 bytes        (recordImage_eq)
    (b.readRecord (b'.recordImage ++ rest)).2.contents = b'.contents           (readRecord_image)

A reader of records that stand one after the other gives one buffer for each of them, in whatever
pieces the bytes arrive                                                        (readAll_images).
-/

namespace CounterTrace

open Bytes

/-! ## Slots -/

namespace Sample

/-- A slot as it may arrive, with any word as its pad. -/
def paddedImage (s : Sample) (pad : UInt32) : List UInt8 :=
  le64 s.cycles ++ le32 s.pid ++ le32 pad ++ s.counters.toList.flatMap le32

@[simp]
theorem length_paddedImage (s : Sample) (pad : UInt32) :
    (s.paddedImage pad).length = slotSize := by
  have hcounters : (s.counters.toList.flatMap le32).length = 24 := by
    rw [List.length_flatMap, List.map_congr_left (fun w _ => length_le32 w), List.map_const',
      Vector.length_toList]
    rfl
  simp [paddedImage, hcounters, slotSize]

/-- The pad of a slot is not read. -/
theorem takeSlot_padded (s : Sample) (pad : UInt32) (rest : List UInt8) :
    takeSlot (s.paddedImage pad ++ rest) = some (s, rest) := by
  have hcounters : takeWords takeLE32 maxCounters (s.counters.toList.flatMap le32 ++ rest) =
      some (s.counters.toList, rest) := by
    have h := takeWords_append takeLE32_append s.counters.toList rest
    rwa [Vector.length_toList] at h
  simp only [takeSlot, paddedImage, List.append_assoc, takeLE64_append, takeLE32_append, hcounters,
    Option.bind_eq_bind, Option.bind_some, countersOf_toList]

theorem takeSlots_padded (slots : List (Sample × UInt32)) (rest : List UInt8) :
    takeSlots slots.length (slots.flatMap (fun slot => slot.1.paddedImage slot.2) ++ rest) =
      slots.map Prod.fst := by
  induction slots with
  | nil => rfl
  | cons slot slots ih =>
    rw [List.length_cons, List.flatMap_cons, List.append_assoc, takeSlots, takeSlot_padded]
    exact congrArg (slot.1 :: ·) ih

end Sample

/-! ## Records -/

/-- The fields of a record, whatever they hold. -/
structure RecordFields where
  core : UInt32
  count : UInt32
  reserved : UInt32
  /-- Each slot with its pad word. -/
  slots : List (Sample × UInt32)
  length_slots : slots.length = bufferCapacity

namespace RecordFields

/-- The bytes behind the header. -/
def body (f : RecordFields) : List UInt8 := f.slots.flatMap fun slot => slot.1.paddedImage slot.2

def bytes (f : RecordFields) : List UInt8 :=
  le32 f.core ++ le32 f.count ++ le32 f.reserved ++ f.body

/-- The samples that the record counts. -/
def samples (f : RecordFields) : List Sample := (f.slots.take f.count.toNat).map Prod.fst

theorem length_bytes (f : RecordFields) : f.bytes.length = recordSize := by
  have hbody : f.body.length = bufferCapacity * slotSize := by
    rw [body, List.length_flatMap,
      List.map_congr_left (fun slot _ => slot.1.length_paddedImage slot.2), List.map_const',
      List.sum_replicate_nat, f.length_slots]
  simp only [bytes, List.length_append, length_le32, hbody]
  rfl

theorem length_samples {f : RecordFields} (h : f.count.toNat ≤ bufferCapacity) :
    f.samples.length = f.count.toNat := by
  rw [samples, List.length_map, List.length_take, f.length_slots]
  exact Nat.min_eq_left h

end RecordFields

namespace Buffer

/-! ## Reading one record -/

/-- What a buffer is read for. -/
def contents (b : Buffer) : UInt32 × List Sample := (b.core, b.samples)

theorem take_overwrite (slots : Vector Sample bufferCapacity) {ss : List Sample}
    (h : ss.length ≤ bufferCapacity) : (overwrite slots ss).toList.take ss.length = ss := by
  refine List.ext_getElem ?_ fun i hi hi' => ?_
  · rw [List.length_take, Vector.length_toList, Nat.min_eq_left h]
  · simp [overwrite, hi']

/-- What is read of a record: its core and its samples, unless it counts more than there is room
for. -/
theorem readRecord_bytes (b : Buffer) (f : RecordFields) (rest : List UInt8) :
    b.readRecord (f.bytes ++ rest) =
      if h : f.count.toNat ≤ bufferCapacity then
        (.ok (), ⟨f.core, f.count.toNat, overwrite b.slots f.samples, h⟩)
      else (.error (.invalidCount f.count), b) := by
  have hlong : ¬ (f.bytes ++ rest).length < recordSize := by
    rw [List.length_append, f.length_bytes]
    omega
  have hwords : takeWords takeLE32 3 (f.bytes ++ rest) =
      some ([f.core, f.count, f.reserved], f.body ++ rest) := by
    have h := takeWords_append takeLE32_append [f.core, f.count, f.reserved] (f.body ++ rest)
    simpa [RecordFields.bytes] using h
  by_cases hcount : f.count.toNat ≤ bufferCapacity
  · have hslots : Sample.takeSlots f.count.toNat (f.body ++ rest) = f.samples := by
      have h := Sample.takeSlots_padded (f.slots.take f.count.toNat)
        (((f.slots.drop f.count.toNat).flatMap fun slot => slot.1.paddedImage slot.2) ++ rest)
      rw [← List.append_assoc, ← List.flatMap_append, List.take_append_drop, List.length_take,
        f.length_slots, Nat.min_eq_left hcount] at h
      exact h
    simp only [readRecord, if_neg hlong, hwords, dif_pos hcount, hslots]
  · simp only [readRecord, if_neg hlong, hwords, dif_neg hcount]

theorem readRecord_of_room {f : RecordFields} (hcount : f.count.toNat ≤ bufferCapacity)
    (b : Buffer) (rest : List UInt8) :
    ∃ b' : Buffer, b.readRecord (f.bytes ++ rest) = (.ok (), b') ∧
      b'.contents = (f.core, f.samples) := by
  have hsamples := RecordFields.length_samples hcount
  have htake := take_overwrite b.slots (hsamples.symm ▸ hcount)
  rw [hsamples] at htake
  refine ⟨⟨f.core, f.count.toNat, overwrite b.slots f.samples, hcount⟩, ?_, Prod.ext rfl htake⟩
  rw [readRecord_bytes, dif_pos hcount]

theorem readRecord_of_no_room {f : RecordFields} (hcount : ¬ f.count.toNat ≤ bufferCapacity)
    (b : Buffer) (rest : List UInt8) :
    b.readRecord (f.bytes ++ rest) = (.error (.invalidCount f.count), b) := by
  rw [readRecord_bytes, dif_neg hcount]

theorem readRecord_of_short {bytes : List UInt8} (h : bytes.length < recordSize) (b : Buffer) :
    b.readRecord bytes = (.error (.truncated bytes.length), b) := by
  rw [readRecord, if_pos h]

/-! ## Images -/

/-- Slots number `k`, `k + 1`, …: those below the count show their samples, the others zeros. -/
theorem flatMap_slotBytes (count : Nat) (ss : List Sample) (k : Nat) :
    ((ss.zipIdx k).flatMap fun (s, i) => slotBytes count s i) =
      (ss.take (count - k)).flatMap Sample.slotImage ++
        List.replicate ((ss.length - (count - k)) * slotSize) 0 := by
  induction ss generalizing k with
  | nil => simp
  | cons s ss ih =>
    rw [List.zipIdx_cons, List.flatMap_cons, ih]
    by_cases hk : k < count
    · have hused : count - k = count - (k + 1) + 1 := by omega
      simp [slotBytes, hk, hused]
    · have hunused : count - k = 0 ∧ count - (k + 1) = 0 := by omega
      simp [slotBytes, hk, hunused, Nat.succ_mul, Nat.add_comm _ slotSize]

/-- A record shows nothing of what is in the slots past the count. -/
theorem recordImage_eq (b : Buffer) :
    b.recordImage = le32 b.core ++ le32 (UInt32.ofNat b.count) ++ le32 0 ++
      (b.samples.flatMap Sample.slotImage ++
        List.replicate ((bufferCapacity - b.count) * slotSize) 0) := by
  simp [recordImage, flatMap_slotBytes, samples]

/-- The core and the samples make the record. -/
theorem recordImage_of_contents {b : Buffer} {core : UInt32} {ss : List Sample}
    (h : b.contents = (core, ss)) :
    b.recordImage = le32 core ++ le32 (UInt32.ofNat ss.length) ++ le32 0 ++
      (ss.flatMap Sample.slotImage ++
        List.replicate ((bufferCapacity - ss.length) * slotSize) 0) := by
  obtain ⟨rfl, rfl⟩ := Prod.mk.inj h
  rw [b.length_samples]
  exact b.recordImage_eq

/-- The fields of the record that is written. -/
def fields (b : Buffer) : RecordFields where
  core := b.core
  count := UInt32.ofNat b.count
  reserved := 0
  slots := b.samples.map (·, 0) ++ List.replicate (bufferCapacity - b.count) (Sample.zero, 0)
  length_slots := by
    have hcount := b.count_le
    rw [List.length_append, List.length_map, List.length_replicate, length_samples]
    omega

theorem toNat_count (b : Buffer) : (UInt32.ofNat b.count).toNat = b.count := by
  have hcount : b.count < UInt32.size := Nat.lt_of_le_of_lt b.count_le (by decide)
  exact UInt32.toNat_ofNat_of_lt' hcount

theorem samples_fields (b : Buffer) : b.fields.samples = b.samples := by
  have hlength : (b.samples.map (·, (0 : UInt32))).length = b.fields.count.toNat := by
    rw [List.length_map, length_samples]
    exact b.toNat_count.symm
  have hslots : b.fields.slots = b.samples.map (·, 0) ++
      List.replicate (bufferCapacity - b.count) (Sample.zero, 0) := rfl
  rw [RecordFields.samples, hslots, List.take_left' hlength, List.map_map]
  exact List.map_id b.samples

theorem bytes_fields (b : Buffer) : b.fields.bytes = b.recordImage := by
  have hunused : ∀ n, (List.replicate n (Sample.zero, (0 : UInt32))).flatMap
      (fun slot => slot.1.paddedImage slot.2) = List.replicate (n * slotSize) 0 := by
    intro n
    have hzero : Sample.zero.paddedImage 0 = List.replicate slotSize 0 := by decide
    rw [List.flatMap_replicate, hzero, List.flatten_replicate_replicate]
  rw [recordImage_eq, RecordFields.bytes, RecordFields.body, fields, List.flatMap_append, hunused,
    List.flatMap_map]
  rfl

@[simp]
theorem length_recordImage (b : Buffer) : b.recordImage.length = recordSize :=
  b.bytes_fields ▸ b.fields.length_bytes

theorem readRecord_image (b b' : Buffer) (rest : List UInt8) :
    ∃ b'', b.readRecord (b'.recordImage ++ rest) = (.ok (), b'') ∧ b''.contents = b'.contents := by
  have hcount : b'.fields.count.toNat ≤ bufferCapacity := b'.toNat_count.symm ▸ b'.count_le
  obtain ⟨b'', hread, hcontents⟩ := b.readRecord_of_room hcount rest
  rw [b'.bytes_fields] at hread
  rw [b'.samples_fields] at hcontents
  exact ⟨b'', hread, hcontents⟩

/-- Writing overwrites the front of a destination that is long enough, -/
theorem writeRecord_of_le {dst : List UInt8} (h : recordSize ≤ dst.length) (b : Buffer) :
    b.writeRecord dst = (.ok recordSize, b.recordImage ++ dst.drop recordSize) := by
  rw [writeRecord, if_neg (Nat.not_lt.2 h)]

/-- and nothing of a shorter one. -/
theorem writeRecord_of_lt {dst : List UInt8} (h : dst.length < recordSize) (b : Buffer) :
    b.writeRecord dst = (.error (.shortRead dst.length), dst) := by
  rw [writeRecord, if_pos h]

end Buffer

/-! ## Reading records one after the other -/

theorem Bytes.Supply.fill_append {n : Nat} {front rest : List UInt8} (hfront : front.length = n)
    {s : Supply} (h : s.bytes = front ++ rest) :
    ∃ s', s.fill n = (.filled front, s') ∧ s'.bytes = rest ∧ s'.failure = s.failure := by
  obtain ⟨hgot, hleft⟩ := gather_flatten n s.pieces
  have hflat : s.pieces.flatten = front ++ rest := h
  rw [hflat, ← hfront, List.take_left] at hgot
  rw [hflat, ← hfront, List.drop_left] at hleft
  subst hfront
  refine ⟨{ s with pieces := (gather front.length s.pieces).2 }, ?_, hleft, rfl⟩
  simp only [fill, hgot, if_true]

theorem Bytes.Supply.fill_of_short {n : Nat} {s : Supply} (hshort : s.bytes.length < n)
    (hfailure : s.failure = none) : ∃ s', s.fill n = (.ended, s') := by
  obtain ⟨hgot, -⟩ := gather_flatten n s.pieces
  have hlength : (gather n s.pieces).1.length ≠ n := by
    have h : s.pieces.flatten.length < n := hshort
    rw [hgot, List.length_take]
    omega
  refine ⟨{ s with pieces := (gather n s.pieces).2 }, ?_⟩
  simp only [fill, hlength, if_false, hfailure]

namespace RecordReader

/-- A reader in front of a record takes the record, whatever buffer it reads into. -/
theorem readInto_image {r : RecordReader} {b : Buffer} {rest : List UInt8}
    (h : r.supply.bytes = b.recordImage ++ rest) (into : Buffer) :
    ∃ b' r', r.readInto into = (.record, b', r') ∧ b'.contents = b.contents ∧
      r'.supply.bytes = rest ∧ r'.supply.failure = r.supply.failure := by
  obtain ⟨supply', hfill, hbytes, hfailure⟩ := r.supply.fill_append b.length_recordImage h
  obtain ⟨b', hread, hb'⟩ := into.readRecord_image b []
  rw [List.append_nil] at hread
  refine ⟨b', ⟨supply'⟩, ?_, hb', hbytes, hfailure⟩
  simp only [readInto, hfill, hread]

theorem readAll_of_ended {r r' : RecordReader} (h : r.next = (.ok none, r')) : r.readAll = [] := by
  rw [readAll]
  split <;> simp_all

theorem readAll_of_record {r r' : RecordReader} {b : Buffer} (h : r.next = (.ok (some b), r')) :
    r.readAll = .ok b :: r'.readAll := by
  rw [readAll]
  split <;> simp_all

/-- Records that stand one after the other are read one after the other, and then the end. -/
theorem readAll_images (bs : List Buffer) {r : RecordReader}
    (hbytes : r.supply.bytes = bs.flatMap Buffer.recordImage) (hfailure : r.supply.failure = none) :
    r.readAll.map (Except.map Buffer.contents) = bs.map fun b => .ok b.contents := by
  induction bs generalizing r with
  | nil =>
    have hshort : r.supply.bytes.length < recordSize := by
      rw [hbytes]
      decide
    obtain ⟨supply', hfill⟩ := r.supply.fill_of_short hshort hfailure
    have hnext : r.next = (.ok none, ⟨supply'⟩) := by simp only [next, readInto, hfill]
    rw [readAll_of_ended hnext]
    rfl
  | cons b bs ih =>
    rw [List.flatMap_cons] at hbytes
    obtain ⟨b', r', hread, hb', hbytes', hfailure'⟩ := readInto_image hbytes Buffer.new
    have hnext : r.next = (.ok (some b'), r') := by simp only [next, hread]
    rw [readAll_of_record hnext, List.map_cons, List.map_cons,
      ih hbytes' (hfailure'.trans hfailure)]
    exact congrArg (fun c => Except.ok c :: _) hb'

end RecordReader

end CounterTrace
