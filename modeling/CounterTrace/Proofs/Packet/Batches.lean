import CounterTrace.Packet.Batch
import CounterTrace.Proofs.Packet.Image

/-!
# Batches

Whatever the identities are, the packets of a batch hold its samples in their order, and each packet
is of one core and one process.  The invariant is that of the pending packet: together with the
packets that are complete it holds the samples so far.

    (b.encodeBuffer buffer cache missed).1      packets that fit `buffer.core`, with the samples of
                                                `buffer` one after the other  (encodeBuffer_samples)
    p.Fits core                                 `p` arrives with all its samples
                                                                           (Packet.Fits.arrived_eq)
-/

namespace CounterTrace

/-- A packet is whole in itself: it holds at least one sample and not too many, all of the process
that the header names, and the header counts them. -/
structure Packet.Fits (core : UInt32) (p : Packet) : Prop where
  core : p.header.core = wireCore core
  counters : p.header.counterCount = UInt8.ofNat maxCounters
  ne_nil : p.samples ≠ []
  room : p.samples.length ≤ maxQuantity
  quantity : p.header.quantity = UInt8.ofNat p.samples.length
  pid : ∀ s ∈ p.samples, s.pid = p.header.pid

namespace PacketBuilder

/-- The samples that wait for their packet. -/
def held (b : PacketBuilder) : List Sample := (b.pending.map (·.samples)).getD []

/-- A builder that works for a core. -/
def WorksFor (core : UInt32) (b : PacketBuilder) : Prop := ∀ p, b.pending = some p → p.Fits core

section
variable {core : UInt32} {b : PacketBuilder} {s : Sample} {e : Identity}

theorem worksFor_startBatch (core : UInt32) (b : PacketBuilder) : b.startBatch.WorksFor core := by
  intro p hp
  cases hp

/-- A sample that may go into the pending packet does. -/
theorem push_of_not_mustFlush (missed : UInt32) (hb : b.WorksFor core)
    (h : b.mustFlush core s e = false) :
    (b.push core s e missed).WorksFor core ∧ (b.push core s e missed).held = b.held ++ [s] := by
  cases hp : b.pending with
  | none =>
    refine ⟨?_, by simp [held, push, extend, opened, hp]⟩
    rintro p ⟨⟩
    rw [hp]
    refine ⟨rfl, rfl, by simp [extend], by simp [extend, opened, maxQuantity], rfl, ?_⟩
    simp [extend, opened]
  | some q =>
    have hq := hb q hp
    simp only [mustFlush, hp, Bool.or_eq_false_iff, decide_eq_false_iff_not, Nat.not_le,
      bne_eq_false_iff_eq] at h
    obtain ⟨⟨⟨hroom, -⟩, -⟩, hpid⟩ := h
    refine ⟨?_, by simp [held, push, extend, hp]⟩
    rintro p ⟨⟩
    rw [hp]
    refine ⟨hq.core, hq.counters, by simp [extend], ?_, ?_, ?_⟩
    · rw [extend, List.length_append]
      exact hroom
    · simp [extend]
    · intro t ht
      rcases List.mem_append.1 ht with ht | ht
      · exact hq.pid t ht
      · rw [List.mem_singleton.1 ht]
        exact hpid.symm

/-- A sample that may not go into the pending packet goes into a new one, once that is taken. -/
theorem push_of_mustFlush (h : b.mustFlush core s e = true) :
    (∃ p, b.flush.1 = some p ∧ b.pending = some p) ∧
      b.flush.2.WorksFor core ∧ b.flush.2.held = [] ∧ b.flush.2.mustFlush core s e = false := by
  refine ⟨?_, ?_, rfl, rfl⟩
  · cases hp : b.pending with
    | none => simp [mustFlush, hp] at h
    | some p => exact ⟨p, hp, rfl⟩
  · intro p hp
    cases hp

end

section
variable {l : Type} [MetadataLoader l] {core : UInt32}

/-- The packets that became complete and the pending one hold the samples in their order. -/
theorem addSamples_samples (missed : UInt32) (ss : List Sample) {b : PacketBuilder}
    (cache : IdentityCache l) (hb : b.WorksFor core) :
    (∀ p ∈ (addSamples core missed ss b cache).1, p.Fits core) ∧
      (addSamples core missed ss b cache).2.1.WorksFor core ∧
      (addSamples core missed ss b cache).1.flatMap (·.samples) ++
        (addSamples core missed ss b cache).2.1.held = b.held ++ ss := by
  induction ss generalizing b cache with
  | nil => simpa [addSamples] using hb
  | cons s ss ih =>
    rcases hresolve : cache.resolve s.pid b.isEmpty with ⟨e, cache'⟩
    cases hf : b.mustFlush core s e with
    | false =>
      obtain ⟨hpush, hheld⟩ := push_of_not_mustFlush missed hb hf
      obtain ⟨hfits, hworks, hsamples⟩ := ih cache' hpush
      simp only [addSamples, hresolve, hf, Bool.false_eq_true, if_false, Option.toList_none,
        List.nil_append]
      refine ⟨hfits, hworks, ?_⟩
      rw [hsamples, hheld, List.append_assoc]
      rfl
    | true =>
      obtain ⟨⟨p, hflush, hp⟩, hworks₀, hheld₀, hf'⟩ := push_of_mustFlush hf
      obtain ⟨hpush, hheld⟩ := push_of_not_mustFlush missed hworks₀ hf'
      obtain ⟨hfits, hworks, hsamples⟩ := ih cache' hpush
      have hb_held : b.held = p.samples := by rw [held, hp]; rfl
      simp only [addSamples, hresolve, hf, if_true, hflush, Option.toList_some, List.cons_append,
        List.nil_append]
      refine ⟨?_, hworks, ?_⟩
      · intro q hq
        rcases List.mem_cons.1 hq with rfl | hq
        · exact hb q hp
        · exact hfits q hq
      · rw [List.flatMap_cons, List.append_assoc, hsamples, hheld, hheld₀, hb_held]
        rfl

/-- The packets of a buffer fit its core and hold its samples in their order. -/
theorem encodeBuffer_samples (b : PacketBuilder) (buffer : Buffer) (cache : IdentityCache l)
    (missed : UInt32) :
    (∀ p ∈ (b.encodeBuffer buffer cache missed).1, p.Fits buffer.core) ∧
      (b.encodeBuffer buffer cache missed).1.flatMap (·.samples) = buffer.samples := by
  obtain ⟨hfits, hworks, hsamples⟩ :=
    addSamples_samples missed buffer.samples cache (worksFor_startBatch buffer.core b)
  rw [show b.startBatch.held = [] from rfl, List.nil_append] at hsamples
  simp only [encodeBuffer, flush]
  cases hp : (addSamples buffer.core missed buffer.samples b.startBatch cache).2.1.pending with
  | none =>
    rw [held, hp] at hsamples
    refine ⟨?_, ?_⟩
    · simpa using hfits
    · simpa using hsamples
  | some p =>
    rw [held, hp] at hsamples
    refine ⟨?_, ?_⟩
    · intro q hq
      rcases List.mem_append.1 hq with hq | hq
      · exact hfits q hq
      · rw [List.mem_singleton.1 hq]
        exact hworks p hp
    · simpa using hsamples

/-- Turns buffers into batches, one after the other; each comes with the samples missed so far. -/
def encodeBuffers : List (Buffer × UInt32) → PacketBuilder → IdentityCache l →
    List Packet × PacketBuilder × IdentityCache l
  | [], b, cache => ([], b, cache)
  | (buffer, missed) :: rest, b, cache =>
    let (batch, b, cache) := b.encodeBuffer buffer cache missed
    let (packets, b, cache) := encodeBuffers rest b cache
    (batch ++ packets, b, cache)

theorem encodeBuffers_cons (buffer : Buffer × UInt32) (rest : List (Buffer × UInt32))
    (b : PacketBuilder) (cache : IdentityCache l) :
    (encodeBuffers (buffer :: rest) b cache).1 =
      (b.encodeBuffer buffer.1 cache buffer.2).1 ++
        (encodeBuffers rest (b.encodeBuffer buffer.1 cache buffer.2).2.1
          (b.encodeBuffer buffer.1 cache buffer.2).2.2).1 := rfl

/-- Every packet is of the batch of some buffer. -/
theorem encodeBuffers_fits (buffers : List (Buffer × UInt32)) (b : PacketBuilder)
    (cache : IdentityCache l) :
    ∀ p ∈ (encodeBuffers buffers b cache).1, ∃ buffer ∈ buffers, p.Fits buffer.1.core := by
  induction buffers generalizing b cache with
  | nil => simp [encodeBuffers]
  | cons buffer rest ih =>
    intro p hp
    rcases List.mem_append.1 hp with hp | hp
    · exact ⟨buffer, List.mem_cons_self, (encodeBuffer_samples b buffer.1 cache buffer.2).1 p hp⟩
    · obtain ⟨other, hother, hfits⟩ := ih _ _ p hp
      exact ⟨other, List.mem_cons_of_mem _ hother, hfits⟩

end

end PacketBuilder

/-! ## Arrival -/

/-- A sample as it arrives: of the cycles the low 32 bits are left. -/
def Sample.arrived (s : Sample) : Sample :=
  { s with cycles := UInt64.ofNat (s.cycles.toNat % UInt32.size) }

/-- A packet as it arrives. -/
def Packet.arrived (p : Packet) : Packet := p.image.packet

theorem Sample.received_all (s : Sample) : s.received maxCounters s.pid = s.arrived := by
  have hcounters : s.counters.toList.take maxCounters = s.counters.toList :=
    List.take_of_length_le (Vector.length_toList ▸ Nat.le_refl _)
  rw [Sample.received, groupSample, hcounters, countersOf_toList, UInt32.toNat_ofNat']
  rfl

theorem toNat_wireCore_eq_min (core : UInt32) : (wireCore core).toNat = min core.toNat 255 := by
  rw [wireCore]
  exact UInt8.toNat_ofNat_of_lt' (Nat.lt_of_le_of_lt (Nat.min_le_right ..) (by decide))

theorem toNat_wireCore {core : UInt32} (h : core.toNat < 256) :
    (wireCore core).toNat = core.toNat := by
  rw [toNat_wireCore_eq_min, Nat.min_eq_left (by omega)]

namespace Packet.Fits

variable {core : UInt32} {p : Packet} (hp : p.Fits core)
include hp

theorem wireCounters : p.wireCounters = maxCounters := by
  rw [Packet.wireCounters, hp.counters]
  rfl

theorem wireQuantity : p.wireQuantity = p.samples.length := Nat.min_eq_left hp.room

/-- A packet that fits arrives with its header and all its samples. -/
theorem arrived_eq : p.arrived =
    { header := p.header
      samples := p.samples.map Sample.arrived
      cmdline := Utf8.decodeLenient ((Utf8.encode p.cmdline).filter (· != 0))
      executable := Utf8.decodeLenient ((Utf8.encode p.executable).filter (· != 0)) } := by
  have hsamples : (p.samples.take p.wireQuantity).map (·.received p.wireCounters p.header.pid) =
      p.samples.map Sample.arrived := by
    rw [hp.wireCounters, hp.wireQuantity, List.take_length]
    refine List.map_congr_left fun s hs => ?_
    rw [← hp.pid s hs, Sample.received_all]
  have hheader : { p.header with
      counterCount := UInt8.ofNat p.wireCounters, quantity := UInt8.ofNat p.wireQuantity } =
      p.header := by
    rw [hp.wireCounters, hp.wireQuantity, ← hp.counters, ← hp.quantity]
  rw [Packet.arrived, Packet.packet_image, hsamples, hheader]

theorem fields_image : p.image.fields = p.header := congrArg Packet.header hp.arrived_eq

theorem quantity_ne_zero : p.header.quantity ≠ 0 := by
  have hlength := List.length_pos_iff.2 hp.ne_nil
  have hroom := hp.room
  intro hzero
  have := congrArg UInt8.toNat (hp.quantity.symm.trans hzero)
  rw [UInt8.toNat_ofNat', UInt8.toNat_zero] at this
  rw [maxQuantity] at hroom
  omega

/-- Of the checks of a packet that fits, only that of its core can fail. -/
theorem usable_image_iff {maxCores : Nat} :
    p.image.Usable maxCores ↔ p.header.core.toNat < maxCores := by
  have hcounters : p.header.counterCount.toNat ≤ maxCounters := by
    rw [hp.counters]
    decide
  rw [PacketImage.Usable, hp.fields_image]
  exact ⟨fun h => h.2.1, fun h => ⟨hcounters, h, hp.quantity_ne_zero⟩⟩

end Packet.Fits

end CounterTrace
