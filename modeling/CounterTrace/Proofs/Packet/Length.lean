import CounterTrace.Proofs.Packet.Arrival

/-!
# Lengths of packets

The length that a packet announces counts all its samples, each with as many counters as its header
says; what is written of it stops at 255 samples and six counters.

    p.wire.length = 20 + quantity * groupSize counters + both texts          (Packet.length_wire)
    p.wire.length = p.wireLength ↔ no sample and no counter is left out
                                                                  (length_wire_eq_wireLength_iff)

The two lengths are the same for every packet of a batch (`wireLength_of_mem_encodeBuffer`) and for
every packet that was read (`wireLength_of_readPacket`).
-/

namespace CounterTrace

/-! ## Groups -/

/-- Groups that are cut in number and in size are shorter together, unless nothing is cut. -/
theorem cut_groups_eq_iff {quantity counters most widest : Nat} :
    min quantity most * groupSize (min counters widest) = quantity * groupSize counters ↔
      quantity = 0 ∨ quantity ≤ most ∧ counters ≤ widest := by
  by_cases hnone : quantity = 0
  · simp [hnone]
  by_cases hmany : quantity ≤ most
  · rw [Nat.min_eq_left hmany, Nat.mul_right_inj hnone, groupSize, groupSize]
    omega
  · have hpos : 0 < groupSize counters := by
      rw [groupSize]
      omega
    have hsize : groupSize (min counters widest) ≤ groupSize counters := by
      rw [groupSize, groupSize]
      omega
    have hshorter : min quantity most * groupSize (min counters widest) <
        quantity * groupSize counters :=
      calc min quantity most * groupSize (min counters widest)
          ≤ min quantity most * groupSize counters := Nat.mul_le_mul_left _ hsize
        _ < quantity * groupSize counters := Nat.mul_lt_mul_of_pos_right (by omega) hpos
    omega

/-! ## Packets -/

/-- A text without its NULs travels as the text does. -/
theorem wireText_withoutNul (s : String) : wireText (Utf8.withoutNul s) = wireText s := by
  rw [wireText, wireText, ← Utf8.filter_encode, List.filter_filter]
  simp only [Bool.and_self]

namespace Packet

/-- What is written of a packet: the header, the groups of its samples and its texts. -/
theorem length_wire (p : Packet) :
    p.wire.length = packetHeaderSize + p.wireQuantity * groupSize p.wireCounters +
      (wireText p.cmdline).length + (wireText p.executable).length := by
  have hgroups : (p.image.groups.flatMap groupBytes).length =
      p.wireQuantity * groupSize p.wireCounters := by
    rw [length_flatMap_groupBytes p.image.length_counters, p.image.length_groups]
    exact congrArg₂ (· * groupSize ·) p.toNat_ofNat_wireQuantity p.toNat_ofNat_wireCounters
  have htext : ∀ s, (wireText s).length = ((Utf8.encode s).filter (· != 0)).length + 1 :=
    fun s => List.length_append ..
  rw [← p.bytes_image, p.image.length_bytes, hgroups, htext, htext]
  rfl

/-- A packet that arrives announces the length that was written. -/
theorem wireLength_arrived (p : Packet) : p.arrived.wireLength = p.wire.length := by
  have hquantity : ((p.samples.take p.wireQuantity).map
      (·.received p.wireCounters p.header.pid)).length = p.wireQuantity := by
    rw [List.length_map, List.length_take, wireQuantity]
    omega
  rw [length_wire, arrived_eq_received, wireLength, hquantity, p.toNat_ofNat_wireCounters,
    wireText_withoutNul, wireText_withoutNul]

end Packet

/-- **A packet is as long as it announces unless something is left out.**  What is appended for a
packet is a header of 20 bytes, at most 255 groups of at most seven words and the two texts without
their NULs, each with one at its end.  This is never more than the packet announces, and it is just
as much if and only if there are no samples, or at most 255 with at most six counters.  What the
packet announces that arrives is what was appended. -/
theorem length_wire_eq_wireLength_iff (p : Packet) (dst : List UInt8) :
    (dst ++ p.wire).length = dst.length +
        (20 + min p.samples.length 255 * ((1 + min p.header.counterCount.toNat 6) * 4) +
          (((Utf8.encode p.cmdline).filter (· != 0)).length + 1) +
          (((Utf8.encode p.executable).filter (· != 0)).length + 1)) ∧
      (dst ++ p.wire).length ≤ dst.length + p.wireLength ∧
      ((dst ++ p.wire).length = dst.length + p.wireLength ↔
        p.samples = [] ∨ p.samples.length ≤ 255 ∧ p.header.counterCount.toNat ≤ 6) ∧
      p.arrived.wireLength = p.wire.length := by
  have hwire := p.length_wire
  have hlength : p.wireLength = packetHeaderSize +
      p.samples.length * groupSize p.header.counterCount.toNat +
      (wireText p.cmdline).length + (wireText p.executable).length := rfl
  have hcut : p.wireQuantity * groupSize p.wireCounters =
      p.samples.length * groupSize p.header.counterCount.toNat ↔
        p.samples.length = 0 ∨ p.samples.length ≤ 255 ∧ p.header.counterCount.toNat ≤ 6 :=
    cut_groups_eq_iff
  have hle : p.wireQuantity * groupSize p.wireCounters ≤
      p.samples.length * groupSize p.header.counterCount.toNat := by
    refine Nat.mul_le_mul (Nat.min_le_left ..) (Nat.mul_le_mul_right 4 ?_)
    exact Nat.add_le_add_left (Nat.min_le_left ..) 1
  refine ⟨?_, ?_, ?_, p.wireLength_arrived⟩
  · rw [List.length_append, hwire, wireText, wireText, List.length_append, List.length_append]
    rfl
  · rw [List.length_append]
    omega
  · rw [List.length_append, ← List.length_eq_zero_iff, ← hcut]
    omega

/-- One sample under a header that announces a counter more than a sample has. -/
def sevenCounters : Packet where
  header := { counterCount := 7 }
  samples := [Sample.zero]
  cmdline := ""
  executable := ""

theorem sevenCounters_shorter_than_announced :
    sevenCounters.wire.length = 50 ∧ sevenCounters.wireLength = 54 ∧
      ¬ ∀ (p : Packet) (dst : List UInt8),
        (dst ++ p.wire).length = dst.length + p.wireLength := by
  have hwire : sevenCounters.wire.length = 50 := by decide
  have hlength : sevenCounters.wireLength = 54 := by decide
  refine ⟨hwire, hlength, fun h => ?_⟩
  have hsame := h sevenCounters []
  rw [List.nil_append, hwire, hlength] at hsame
  exact absurd hsame (by decide)

/-! ## Packets that are built and packets that are read -/

theorem Packet.Fits.wireLength_eq {core : UInt32} {p : Packet} (hp : p.Fits core) :
    p.wireLength = p.wire.length := by
  rw [p.length_wire, hp.wireQuantity, hp.wireCounters, Packet.wireLength, hp.counters]
  rfl

/-- Every packet of a batch is as long as it announces. -/
theorem PacketBuilder.wireLength_of_mem_encodeBuffer {l : Type} [MetadataLoader l]
    (b : PacketBuilder) (buffer : Buffer) (cache : IdentityCache l) (missed : UInt32) :
    ∀ p ∈ (b.encodeBuffer buffer cache missed).1, p.wireLength = p.wire.length :=
  fun p hp => ((b.encodeBuffer_samples buffer cache missed).1 p hp).wireLength_eq

/-- Every packet that was read is as long as it announces when it is written again. -/
theorem wireLength_of_readPacket {maxCores n : Nat} {bs : List UInt8} {p : Packet}
    (h : readPacket maxCores bs = .packet p n) : p.wireLength = p.wire.length := by
  obtain ⟨i, rest, -, husable, rfl, -⟩ := exists_image_of_readPacket h
  have harrived := i.packet.wireLength_arrived
  rwa [i.arrived_packet husable.1] at harrived

end CounterTrace
