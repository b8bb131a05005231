import CounterTrace.Proofs.Frame.Content

/-!
# Progress of decoding

What is read at the front of a byte list is read from its own bytes alone: it takes at least 22 of
them, what follows does not matter, and of a part of them nothing is read.  So every round of the
search for a packet uses up at least 22 bytes, and where the search stops short the bytes that are
left are the beginning of a packet.

    readPacket n bs = .incomplete ↔ ∃ i, bs <+: i.bytes ∧ bs ≠ i.bytes  (readPacket_incomplete_iff)
    nextPacketWithin n (bs.length / 22) counts bs = some (nextPacket n counts bs)
                                                                       (nextPacketWithin_eq_some)
-/

namespace CounterTrace

open Bytes

/-! ## Parts of packets -/

/-- A header, a body of the length that it announces and bytes with two NULs begin with an image. -/
theorem beginsWithImage_of_parts (front : Vector UInt8 20) {body rest : List UInt8}
    (hbody : body.length = (PacketHeader.ofBytes front).quantity.toNat *
      groupSize (PacketHeader.ofBytes front).counterCount.toNat) (hrest : 2 ≤ rest.count 0) :
    BeginsWithImage (front.toList ++ body ++ rest) := by
  obtain ⟨groups, hquantity, hcounters, rfl⟩ := exists_groups hbody
  have hfirst : 0 ∈ rest := List.count_pos_iff.1 (by omega)
  obtain ⟨cmdline, afterCmdline, rfl, hcmdline⟩ := List.eq_append_cons_of_mem hfirst
  have hsecond : 0 ∈ afterCmdline := by
    rw [List.count_append, List.count_cons_self, List.count_eq_zero.2 hcmdline] at hrest
    exact List.count_pos_iff.1 (by omega)
  obtain ⟨executable, more, rfl, hexecutable⟩ := List.eq_append_cons_of_mem hsecond
  refine ⟨⟨front, groups, cmdline, executable, hquantity, hcounters, hcmdline, hexecutable⟩,
    more, ?_⟩
  simp only [PacketImage.bytes, List.append_assoc, List.cons_append, List.nil_append]

/-- The longest body that a header can announce. -/
def maxBodySize : Nat := maxQuantity * groupSize 255

/-- Every byte list begins an image, if zeros are put behind it. -/
theorem beginsWithImage_append_zeros (bs : List UInt8) :
    BeginsWithImage (bs ++ List.replicate (packetHeaderSize + maxBodySize + 2) 0) := by
  generalize hpadded : bs ++ List.replicate (packetHeaderSize + maxBodySize + 2) 0 = padded
  have hlong : packetHeaderSize + maxBodySize + 2 ≤ padded.length := by
    rw [← hpadded, List.length_append, List.length_replicate]
    exact Nat.le_add_left ..
  let front : Vector UInt8 20 := ⟨⟨padded.take 20⟩, by
    rw [List.size_toArray, List.length_take]
    rw [packetHeaderSize] at hlong
    omega⟩
  have hsize : front[3].toNat * groupSize front[1].toNat ≤ maxBodySize := by
    have hquantity := front[3].toNat_lt
    have hcounters := front[1].toNat_lt
    refine Nat.mul_le_mul (by rw [maxQuantity]; omega) ?_
    rw [groupSize, groupSize]
    omega
  generalize hn : front[3].toNat * groupSize front[1].toNat = n at hsize
  -- behind any body there are still two of the zeros
  have hzeros : 2 ≤ ((padded.drop 20).drop n).count 0 := by
    rw [List.drop_drop, ← hpadded, List.drop_append, List.count_append, List.drop_replicate,
      List.count_replicate_self, packetHeaderSize]
    omega
  have hbody : ((padded.drop 20).take n).length = front[3].toNat * groupSize front[1].toNat := by
    rw [hn, List.length_take, List.length_drop]
    rw [packetHeaderSize] at hlong
    omega
  have hparts := beginsWithImage_of_parts front hbody hzeros
  rw [List.append_assoc, List.take_append_drop] at hparts
  exact (List.take_append_drop 20 padded) ▸ hparts

/-- Nothing is read exactly while the bytes are the beginning of an image and not all of it. -/
theorem readPacket_incomplete_iff {maxCores : Nat} {bs : List UInt8} :
    readPacket maxCores bs = .incomplete ↔ ∃ i : PacketImage, bs <+: i.bytes ∧ bs ≠ i.bytes := by
  rw [readPacket_eq_incomplete_iff]
  constructor
  · intro hno
    obtain ⟨i, rest, hwhole⟩ := beginsWithImage_append_zeros bs
    rcases List.prefix_or_prefix_of_prefix (List.prefix_append bs _)
      (hwhole ▸ List.prefix_append i.bytes rest) with hpart | hpart
    · refine ⟨i, hpart, ?_⟩
      rintro rfl
      exact hno ⟨i, [], (List.append_nil _).symm⟩
    · obtain ⟨more, rfl⟩ := hpart
      exact absurd ⟨i, more, rfl⟩ hno
  · rintro ⟨i, hpart, hne⟩
    have hlength : bs.length < i.bytes.length :=
      Nat.lt_of_le_of_ne hpart.length_le fun h => hne (hpart.eq_of_length h)
    rw [List.prefix_iff_eq_take.1 hpart]
    exact i.not_beginsWithImage_take hlength

/-! ## Rounds of the search -/

namespace FrameDecoder

/-- The search for a packet, given up if it would use bytes up in more rounds than allowed.  The
last look, which finds nothing more, uses up none. -/
def nextPacketWithin (maxCores : Nat) : Nat → FaultCounts → List UInt8 →
    Option (Except DecodeError (Option Packet) × FaultCounts × List UInt8)
  | 0, counts, bs =>
    match readPacket maxCores bs with
    | .incomplete => some (.ok none, counts, bs)
    | _ => none
  | rounds + 1, counts, bs =>
    match readPacket maxCores bs with
    | .incomplete => some (.ok none, counts, bs)
    | .packet p n => some (.ok (some p), counts, bs.drop n)
    | .malformed fault n => nextPacketWithin maxCores rounds (counts.count fault) (bs.drop n)

theorem nextPacketWithin_of_lt {maxCores rounds : Nat} {bs : List UInt8}
    (h : bs.length < 22 * (rounds + 1)) (counts : FaultCounts) :
    nextPacketWithin maxCores rounds counts bs = some (nextPacket maxCores counts bs) := by
  induction rounds generalizing counts bs with
  | zero =>
    cases hread : readPacket maxCores bs with
    | incomplete => simp only [nextPacketWithin, hread, nextPacket_of_incomplete hread]
    | packet p n =>
      have := readPacket_packet_length hread
      omega
    | malformed fault n =>
      have := readPacket_malformed_length hread
      omega
  | succ rounds ih =>
    cases hread : readPacket maxCores bs with
    | incomplete => simp only [nextPacketWithin, hread, nextPacket_of_incomplete hread]
    | packet p n => simp only [nextPacketWithin, hread, nextPacket_of_packet hread]
    | malformed fault n =>
      have hn := readPacket_malformed_length hread
      have hrest : (bs.drop n).length < 22 * (rounds + 1) := by
        rw [List.length_drop]
        omega
      simp only [nextPacketWithin, hread, nextPacket_of_malformed hread, ih hrest]

/-- The search takes at most one round for every 22 bytes. -/
theorem nextPacketWithin_eq_some (maxCores : Nat) (counts : FaultCounts) (bs : List UInt8) :
    nextPacketWithin maxCores (bs.length / 22) counts bs =
      some (nextPacket maxCores counts bs) :=
  nextPacketWithin_of_lt (by omega) counts

/-- Where the search for a packet stops short, the beginning of an image is left. -/
theorem input_of_next_none {d d' : FrameDecoder} (hd : d.awaitsDescription = false)
    (h : d.next = (.ok none, d')) :
    ∃ i : PacketImage, d'.input <+: i.bytes ∧ d'.input ≠ i.bytes := by
  simp only [next, hd, Bool.false_eq_true, if_false] at h
  obtain ⟨counts, rest, hsearch, hrest⟩ | ⟨p, counts, rest, hsearch⟩ :=
    nextPacket_cases d.maxCores d.dropped d.input
  · rw [hsearch] at h
    cases h
    exact readPacket_incomplete_iff.1 hrest
  · rw [hsearch] at h
    cases h

end FrameDecoder

/-! ## Packets and their bytes -/

theorem PacketImage.le_length_bytes (i : PacketImage) : 22 ≤ i.bytes.length := by
  rw [i.length_bytes, packetHeaderSize]
  omega

/-- An image is read as a packet or as an error that tells its length, whatever follows it. -/
theorem PacketImage.result_readPacket (maxCores : Nat) (i : PacketImage) (rest : List UInt8) :
    (∃ p, (readPacket maxCores (i.bytes ++ rest)).result = .ok (some (p, i.bytes.length))) ∨
      ∃ e fault, (readPacket maxCores (i.bytes ++ rest)).result = .error e ∧
        e.skip? = some (fault, i.bytes.length) := by
  rw [i.readPacket_image]
  cases i.fields.fault? maxCores with
  | none => exact .inl ⟨i.packet, rfl⟩
  | some fault => exact .inr ⟨.malformed fault i.bytes.length, fault, rfl, rfl⟩

/-- **A packet is read from its own bytes.**  If anything is read at the front of a byte string, it
is a packet or an error with a length of at least 22 bytes that are there; the same is read of these
bytes whatever follows them, and of a beginning of them nothing.  So the search for a packet ends
within one round for every 22 bytes of any input, and if it finds none, the bytes that are left are
the beginning of a packet that is not whole. -/
theorem readPacket_own_bytes (maxCores : Nat) (s : List UInt8) :
    ((readPacket maxCores s).result ≠ .ok none →
      ∃ n, ((∃ p, (readPacket maxCores s).result = .ok (some (p, n))) ∨
          ∃ e fault, (readPacket maxCores s).result = .error e ∧ e.skip? = some (fault, n)) ∧
        22 ≤ n ∧ n ≤ s.length ∧
        (∀ rest, readPacket maxCores (s.take n ++ rest) = readPacket maxCores s) ∧
        ∀ part, part <+: s.take n → part ≠ s.take n →
          (readPacket maxCores part).result = .ok none) ∧
    (∀ counts, FrameDecoder.nextPacketWithin maxCores (s.length / 22) counts s =
      some (FrameDecoder.nextPacket maxCores counts s)) ∧
    ∀ counts d', FrameDecoder.next ⟨false, maxCores, counts, s⟩ = (.ok none, d') →
      ∃ i : PacketImage, d'.input <+: i.bytes ∧ d'.input ≠ i.bytes := by
  refine ⟨fun hread => ?_, fun counts => FrameDecoder.nextPacketWithin_eq_some maxCores counts s,
    fun counts d' => FrameDecoder.input_of_next_none rfl⟩
  have hwhole : BeginsWithImage s := by
    refine Classical.byContradiction fun hno => hread ?_
    rw [readPacket_eq_incomplete_iff.2 hno]
    rfl
  obtain ⟨i, rest, rfl⟩ := hwhole
  refine ⟨i.bytes.length, i.result_readPacket maxCores rest, i.le_length_bytes, ?_, ?_, ?_⟩
  · rw [List.length_append]
    exact Nat.le_add_right ..
  · intro more
    rw [List.take_left, i.readPacket_image, i.readPacket_image]
  · intro part hpart hne
    rw [List.take_left] at hpart hne
    rw [readPacket_incomplete_iff.2 ⟨i, hpart, hne⟩]
    rfl

/-- A packet with more counters than there can be, from a core out of range. -/
def unusableBytes : List UInt8 :=
  [1, 7, 9, 2] ++ List.replicate 16 0 ++ List.replicate 64 5 ++ [115, 104, 0] ++ [0]

theorem readPacket_own_bytes_unusable :
    (readPacket 4 (unusableBytes ++ [1, 2])).result ≠ .ok none ∧
      readPacket 4 (unusableBytes ++ [1, 2]) = .malformed (.tooManyCounters 7) 88 ∧
      readPacket 4 (unusableBytes ++ [0, 0, 0]) = .malformed (.tooManyCounters 7) 88 ∧
      (readPacket 4 (unusableBytes.take 87)).result = .ok none ∧
      FrameDecoder.next ⟨false, 4, {}, unusableBytes ++ [1, 2]⟩ =
        (.ok none, ⟨false, 4, { tooManyCounters := 1 }, [1, 2]⟩) ∧
      ∃ i : PacketImage, [1, 2] <+: i.bytes ∧ [1, 2] ≠ i.bytes := by
  have hmalformed : readPacket 4 (unusableBytes ++ [1, 2]) =
      .malformed (.tooManyCounters 7) 88 := rfl
  have hwhole : (readPacket 4 (unusableBytes ++ [1, 2])).result ≠ .ok none := by
    rw [hmalformed]
    exact nofun
  have hnext : FrameDecoder.next ⟨false, 4, {}, unusableBytes ++ [1, 2]⟩ =
      (.ok none, ⟨false, 4, { tooManyCounters := 1 }, [1, 2]⟩) := by
    have hleft : readPacket 4 ((unusableBytes ++ [1, 2]).drop 88) = .incomplete := rfl
    simp only [FrameDecoder.next, FrameDecoder.nextPacket_of_malformed hmalformed,
      FrameDecoder.nextPacket_of_incomplete hleft]
    rfl
  obtain ⟨hown, -, hshort⟩ := readPacket_own_bytes 4 (unusableBytes ++ [1, 2])
  obtain ⟨n, hlength, -, -, hsame, hparts⟩ := hown hwhole
  obtain rfl : n = 88 := by
    rcases hlength with ⟨p, hp⟩ | ⟨e, fault, he, hskip⟩
    · rw [hmalformed] at hp
      cases hp
    · rw [hmalformed] at he
      cases he
      cases hskip
      rfl
  exact ⟨hwhole, hmalformed, (hsame [0, 0, 0]).trans hmalformed,
    hparts (unusableBytes.take 87) (List.prefix_iff_eq_take.2 rfl) (by decide), hnext,
    hshort {} _ hnext⟩

end CounterTrace
