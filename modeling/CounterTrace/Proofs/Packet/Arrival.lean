import CounterTrace.Proofs.Frame.Content
import CounterTrace.Proofs.Packet.Batches
import CounterTrace.Proofs.Text.Utf8

/-!
# What arrives of a packet

A packet loses on its way what the format has no room for: samples past the 255th, counters past the
sixth or past those that its header announces, the high bits of the cycles, processes of its own for
the samples, and NULs in the texts.  The rest arrives, behind whatever was written before it and in
front of whatever follows; of a part of the bytes nothing is read.

    readPacket n (dst ++ p.wire ++ rest past dst) = .packet (what is left of p) p.wire.length
                                                                         (readPacket_written)

Nothing more is lost on a second way.  A packet that was read is read again when it is written, and
its bytes are the old ones if the kernel byte was 0 or 1 and the texts were not broken.

    readPacket n bs = .packet p k → readPacket n (p.wire ++ rest) = .packet p p.wire.length
                                                                         (readPacket_rewritten)
-/

namespace CounterTrace

open Bytes

/-! ## Samples -/

/-- Of a sample the low 32 bits of the cycles arrive and its first counters. -/
theorem Sample.received_eq (s : Sample) (counters : Nat) (pid : UInt32) :
    s.received counters pid =
      { cycles := UInt64.ofNat (s.cycles.toNat % UInt32.size)
        pid := pid
        counters := Vector.ofFn fun i => if i.val < counters then s.counters[i] else 0 } := by
  have hcycles : (UInt32.ofNat s.cycles.toNat).toNat = s.cycles.toNat % UInt32.size :=
    UInt32.toNat_ofNat'
  have hcounters : Sample.countersOf (s.counters.toList.take counters) =
      Vector.ofFn fun i => if i.val < counters then s.counters[i] else 0 := by
    refine Vector.ext fun i hi => ?_
    simp only [Sample.countersOf, Vector.getElem_ofFn, List.getD_eq_getElem?_getD,
      List.getElem?_take]
    split
    · rw [List.getElem?_eq_getElem (by simpa using hi)]
      rfl
    · rfl
  rw [Sample.received, groupSample, hcycles, hcounters]

/-- A group of words that was read as a sample is written again as it was. -/
theorem group_of_groupSample (pid : UInt32) {g : UInt32 × List UInt32}
    (h : g.2.length ≤ maxCounters) :
    (UInt32.ofNat (groupSample pid g).cycles.toNat,
      (groupSample pid g).counters.toList.take g.2.length) = g := by
  obtain ⟨cycles, values⟩ := g
  have hcycles : UInt32.ofNat (UInt64.ofNat cycles.toNat).toNat = cycles := by
    have hlt : cycles.toNat < UInt64.size := Nat.lt_trans cycles.toNat_lt (by decide)
    rw [UInt64.toNat_ofNat_of_lt' hlt, UInt32.ofNat_toNat]
  have hcounters : (Sample.countersOf values).toList.take values.length = values := by
    refine List.ext_getElem ?_ fun i hi hi' => ?_
    · rw [List.length_take, Vector.length_toList]
      exact Nat.min_eq_left h
    · simp [Sample.countersOf, List.getElem?_eq_getElem hi']
  rw [groupSample, hcycles, hcounters]

/-! ## A written packet -/

/-- What arrives of a packet, field by field. -/
theorem Packet.arrived_eq_received (p : Packet) :
    p.arrived =
      { header :=
          { p.header with
            counterCount := UInt8.ofNat p.wireCounters
            quantity := UInt8.ofNat p.wireQuantity }
        samples := (p.samples.take p.wireQuantity).map (·.received p.wireCounters p.header.pid)
        cmdline := Utf8.withoutNul p.cmdline
        executable := Utf8.withoutNul p.executable } := by
  rw [Packet.arrived, Packet.packet_image, Utf8.filter_encode, Utf8.filter_encode,
    Utf8.decodeLenient_encode, Utf8.decodeLenient_encode]

/-- A packet with samples can be used wherever its core can. -/
theorem Packet.usable_image {p : Packet} (hp : p.samples ≠ []) {maxCores : Nat}
    (hcore : p.header.core.toNat < maxCores) : p.image.Usable maxCores := by
  have hfields : p.image.fields = p.arrived.header := rfl
  have hsamples := List.length_pos_iff.2 hp
  have hquantity := p.toNat_ofNat_wireQuantity
  rw [PacketImage.Usable, hfields, arrived_eq_received]
  refine ⟨?_, hcore, fun hzero => ?_⟩
  · show (UInt8.ofNat p.wireCounters).toNat ≤ maxCounters
    rw [p.toNat_ofNat_wireCounters]
    exact Nat.min_le_right ..
  · rw [show UInt8.ofNat p.wireQuantity = 0 from hzero, wireQuantity, maxQuantity] at hquantity
    change 0 = _ at hquantity
    omega

/-- **What is written of a packet arrives.**  A packet with samples, of any number and with any
number of counters, is read behind whatever was written before it and in front of whatever follows,
and exactly its own bytes are used up: at most 255 samples with at most six counters each, the other
counters zero, the low 32 bits of the cycles, the process of the header, the texts without their
NULs, and the header as it was but for the two counts.  While only a part of its bytes is there,
nothing is read. -/
theorem readPacket_written {p : Packet} (hp : p.samples ≠ []) {maxCores : Nat}
    (hcore : p.header.core.toNat < maxCores) (dst rest : List UInt8) :
    let counters := min p.header.counterCount.toNat 6
    let quantity := min p.samples.length 255
    readPacket maxCores ((dst ++ p.wire ++ rest).drop dst.length) =
        .packet
          { header :=
              { p.header with
                counterCount := UInt8.ofNat counters, quantity := UInt8.ofNat quantity }
            samples := (p.samples.take quantity).map fun s =>
              { cycles := UInt64.ofNat (s.cycles.toNat % UInt32.size)
                pid := p.header.pid
                counters := Vector.ofFn fun i => if i.val < counters then s.counters[i] else 0 }
            cmdline := Utf8.withoutNul p.cmdline
            executable := Utf8.withoutNul p.executable }
          p.wire.length ∧
      ∀ k < p.wire.length, readPacket maxCores (p.wire.take k) = .incomplete := by
  intro counters quantity
  constructor
  · have hread := p.image.readPacket_image maxCores rest
    rw [PacketHeader.fault?_eq_none_iff.2 (Packet.usable_image hp hcore), p.bytes_image] at hread
    have harrived := p.arrived_eq_received
    simp only [Sample.received_eq] at harrived
    rw [List.append_assoc, List.drop_left, hread, ← Packet.arrived, harrived]
    rfl
  · intro k hk
    rw [← p.bytes_image] at hk ⊢
    exact readPacket_eq_incomplete_iff.2 (p.image.not_beginsWithImage_take hk)

/-- A packet that holds more than can travel. -/
def overfull : Packet where
  header := { kernel := true, counterCount := 200, core := 3, quantity := 9, batch := 7, pid := 40 }
  samples := List.replicate 256 ⟨4294967301, 41, Vector.ofFn fun i => UInt32.ofNat (i.val + 1)⟩
  cmdline := "sh\x00é"
  executable := "\x00"

theorem readPacket_written_overfull :
    overfull.samples ≠ [] ∧ overfull.header.core.toNat < 4 ∧
      readPacket 4 (([1, 2] ++ overfull.wire ++ [0, 0]).drop 2) =
        .packet
          { header :=
              { kernel := true, counterCount := 6, core := 3, quantity := 255, batch := 7
                pid := 40 }
            samples := List.replicate 255
              ⟨5, 40, Vector.ofFn fun i => UInt32.ofNat (i.val + 1)⟩
            cmdline := "shé"
            executable := "" }
          overfull.wire.length ∧
      readPacket 4 (overfull.wire.take 7164) = .incomplete := by
  have hp : overfull.samples ≠ [] := by decide
  have hcore : overfull.header.core.toNat < 4 := by decide
  obtain ⟨hread, hpart⟩ := readPacket_written hp hcore [1, 2] [0, 0]
  refine ⟨hp, hcore, hread.trans ?_, hpart 7164 ?_⟩
  · have hsamples : (overfull.samples.take (min overfull.samples.length 255)).map (fun s =>
        (⟨UInt64.ofNat (s.cycles.toNat % UInt32.size), 40,
          Vector.ofFn fun i => if i.val < 6 then s.counters[i] else 0⟩ : Sample)) =
        List.replicate 255 ⟨5, 40, Vector.ofFn fun i => UInt32.ofNat (i.val + 1)⟩ := by
      simp only [overfull, List.length_replicate, List.take_replicate, List.map_replicate]
      exact congrArg (List.replicate 255) (by decide)
    have hheader : ({ overfull.header with
        counterCount := UInt8.ofNat (min overfull.header.counterCount.toNat 6)
        quantity := UInt8.ofNat (min overfull.samples.length 255) } : PacketHeader) =
        { kernel := true, counterCount := 6, core := 3, quantity := 255, batch := 7
          pid := 40 } := by
      rw [show overfull.samples.length = 256 from List.length_replicate]
      rfl
    rw [PacketRead.packet.injEq, Packet.mk.injEq]
    exact ⟨⟨hheader, hsamples, by decide, by decide⟩, rfl⟩
  · rw [← overfull.bytes_image, overfull.image.length_bytes,
      length_flatMap_groupBytes overfull.image.length_counters, overfull.image.length_groups]
    decide +kernel

/-! ## A packet that was read -/

namespace PacketImage

/-- The first byte of an image, of which only whether it is zero is read. -/
def kernelByte (i : PacketImage) : UInt8 := i.header.toList.headD 0

variable {i : PacketImage} (hcounters : i.fields.counterCount.toNat ≤ maxCounters)
include hcounters

theorem wireCounters_packet : i.packet.wireCounters = i.fields.counterCount.toNat :=
  Nat.min_eq_left hcounters

omit hcounters in
theorem wireQuantity_packet : i.packet.wireQuantity = i.groups.length := by
  have hlength : i.packet.samples.length = i.groups.length := List.length_map ..
  have hbound := i.header[3].toNat_lt
  rw [Packet.wireQuantity, hlength, maxQuantity, i.length_groups]
  omega

/-- The header that is written for a packet that was read has the fields of the old one. -/
theorem fields_image_packet : i.packet.image.fields = i.fields := by
  have hquantity : UInt8.ofNat i.groups.length = i.fields.quantity := by
    rw [i.length_groups]
    exact UInt8.ofNat_toNat
  have hheader : i.packet.image.fields =
      { i.fields with
        counterCount := UInt8.ofNat i.packet.wireCounters
        quantity := UInt8.ofNat i.packet.wireQuantity } :=
    congrArg Packet.header i.packet.packet_image
  rw [hheader, wireCounters_packet hcounters, wireQuantity_packet, hquantity, UInt8.ofNat_toNat]

/-- Its groups are the old ones. -/
theorem groups_image_packet : i.packet.image.groups = i.groups := by
  have hgroups : i.packet.image.groups =
      ((i.groups.map (groupSample i.fields.pid)).take i.packet.wireQuantity).map fun s =>
        (UInt32.ofNat s.cycles.toNat, s.counters.toList.take i.packet.wireCounters) := rfl
  rw [hgroups, wireCounters_packet hcounters, wireQuantity_packet, ← List.map_take,
    List.take_length, List.map_map]
  conv_rhs => rw [← List.map_id i.groups]
  refine List.map_congr_left fun g hg => ?_
  have hlength : g.2.length = i.fields.counterCount.toNat := i.length_counters g hg
  have hgroup := group_of_groupSample i.fields.pid (hlength.symm ▸ hcounters)
  rw [hlength] at hgroup
  exact hgroup

omit hcounters in
/-- Its texts are the old ones with a replacement character for every broken sequence. -/
theorem texts_image_packet :
    i.packet.image.cmdline = Utf8.encode (Utf8.decodeLenient i.cmdline) ∧
      i.packet.image.executable = Utf8.encode (Utf8.decodeLenient i.executable) := by
  have htext : ∀ text : List UInt8, 0 ∉ text →
      (Utf8.encode (Utf8.decodeLenient text)).filter (· != 0) =
        Utf8.encode (Utf8.decodeLenient text) := fun text h => by
    rw [Utf8.filter_encode, Utf8.withoutNul_of_not_mem (Utf8.nul_not_mem_decodeLenient h)]
  exact ⟨htext _ i.cmdline_nul, htext _ i.executable_nul⟩

/-- Of a packet that was read nothing is lost on the way. -/
theorem arrived_packet : i.packet.arrived = i.packet := by
  obtain ⟨hcmdline, hexecutable⟩ := i.texts_image_packet
  rw [Packet.arrived, PacketImage.packet, fields_image_packet hcounters,
    groups_image_packet hcounters, hcmdline, hexecutable, Utf8.decodeLenient_encode,
    Utf8.decodeLenient_encode]
  rfl

/-- The header that is written for a packet that was read is the old one but for the kernel byte. -/
theorem header_image_packet :
    i.packet.image.header.toList = (if i.kernelByte = 0 then 0 else 1) :: i.header.toList.tail := by
  have hheader : i.packet.image.header.toList =
      i.fields.wire i.packet.wireCounters i.packet.wireQuantity := rfl
  have hcount : UInt8.ofNat i.fields.counterCount.toNat = i.header[1] := UInt8.ofNat_toNat
  have hquantity : UInt8.ofNat i.groups.length = i.header[3] := by
    rw [i.length_groups]
    exact UInt8.ofNat_toNat
  have hkernel : (if i.fields.kernel then 1 else 0 : UInt8) =
      if i.kernelByte = 0 then 0 else 1 := by
    rw [kernelByte, toList_twenty]
    simp [fields, PacketHeader.ofBytes]
  rw [hheader, toList_twenty, PacketHeader.wire, hkernel, wireCounters_packet hcounters, hcount,
    wireQuantity_packet, hquantity]
  simp only [fields, PacketHeader.ofBytes, be32_word]
  rfl

end PacketImage

theorem PacketImage.toList_header (i : PacketImage) :
    i.header.toList = i.kernelByte :: i.header.toList.tail := by
  rw [kernelByte, toList_twenty]
  rfl

/-- Images with the same bytes have the same header and the same texts. -/
theorem PacketImage.parts_of_bytes_eq {i i' : PacketImage} (h : i.bytes = i'.bytes) :
    i.header = i'.header ∧ i.cmdline = i'.cmdline ∧ i.executable = i'.executable := by
  have hsplit := i.splitPacket_bytes []
  rw [h, i'.splitPacket_bytes] at hsplit
  simp only [Option.some.injEq, Prod.mk.injEq] at hsplit
  refine ⟨?_, hsplit.2.2.1.symm, hsplit.2.2.2.symm⟩
  have hfront := congrArg (List.take 20) h
  simp only [bytes, List.append_assoc] at hfront
  rw [List.take_left' (by simp), List.take_left' (by simp)] at hfront
  exact Vector.toList_inj.1 hfront

/-- A packet that was read is written with its old bytes if and only if its kernel byte was 0 or 1
and its texts were not broken. -/
theorem PacketImage.wire_packet_eq_iff {i : PacketImage}
    (hcounters : i.fields.counterCount.toNat ≤ maxCounters) :
    i.packet.wire = i.bytes ↔
      i.kernelByte ≤ 1 ∧ (∃ s, Utf8.encode s = i.cmdline) ∧ ∃ s, Utf8.encode s = i.executable := by
  obtain ⟨hcmdline, hexecutable⟩ := i.texts_image_packet
  have hheader := header_image_packet hcounters
  have hcons := i.toList_header
  rw [← i.packet.bytes_image]
  constructor
  · intro h
    obtain ⟨hsame, hsameCmdline, hsameExecutable⟩ := parts_of_bytes_eq h
    refine ⟨?_, ⟨_, hcmdline.symm.trans hsameCmdline⟩, ⟨_, hexecutable.symm.trans hsameExecutable⟩⟩
    rw [hsame, hcons] at hheader
    rw [(List.cons.inj hheader).1]
    split <;> decide
  · rintro ⟨hkernel, ⟨cmdline, hs⟩, ⟨executable, hs'⟩⟩
    have hbyte : (if i.kernelByte = 0 then 0 else 1 : UInt8) = i.kernelByte := by
      have hbound : i.kernelByte.toNat ≤ 1 := UInt8.le_iff_toNat_le.1 hkernel
      split
      · next h => exact h.symm
      · next h =>
        have hne : i.kernelByte.toNat ≠ 0 := fun hzero => h (UInt8.toNat_inj.1 hzero)
        exact UInt8.toNat_inj.1 (show 1 = i.kernelByte.toNat by omega)
    rw [hbyte, ← hcons] at hheader
    rw [← hs, Utf8.decodeLenient_encode] at hcmdline
    rw [← hs', Utf8.decodeLenient_encode] at hexecutable
    rw [bytes, bytes, hheader, groups_image_packet hcounters, hcmdline, hexecutable, hs, hs']

/-- What is read as a packet is the image of that packet. -/
theorem exists_image_of_readPacket {maxCores n : Nat} {bs : List UInt8} {p : Packet}
    (h : readPacket maxCores bs = .packet p n) :
    ∃ (i : PacketImage) (rest : List UInt8), bs = i.bytes ++ rest ∧ i.Usable maxCores ∧
      i.packet = p ∧ i.bytes.length = n := by
  have hwhole : BeginsWithImage bs := by
    refine Classical.byContradiction fun hno => ?_
    rw [readPacket_eq_incomplete_iff.2 hno] at h
    cases h
  obtain ⟨i, rest, rfl⟩ := hwhole
  rw [i.readPacket_image] at h
  cases hfault : i.fields.fault? maxCores with
  | some fault =>
    rw [hfault] at h
    cases h
  | none =>
    rw [hfault] at h
    obtain ⟨hp, hn⟩ := PacketRead.packet.inj h
    exact ⟨i, rest, rfl, PacketHeader.fault?_eq_none_iff.1 hfault, hp, hn⟩

/-- **A packet that was read is read again.**  Whatever its bytes were, the packet is written as
bytes that are read as this packet.  They are the bytes that it was read from if and only if the
kernel byte was 0 or 1 and neither text was broken. -/
theorem readPacket_rewritten {maxCores n : Nat} {bs : List UInt8} {p : Packet}
    (h : readPacket maxCores bs = .packet p n) :
    (∀ rest, readPacket maxCores (p.wire ++ rest) = .packet p p.wire.length) ∧
      ∃ (i : PacketImage) (rest : List UInt8), bs = i.bytes ++ rest ∧ n = i.bytes.length ∧
        (p.wire = bs.take n ↔
          i.kernelByte ≤ 1 ∧ (∃ s, Utf8.encode s = i.cmdline) ∧
            ∃ s, Utf8.encode s = i.executable) := by
  obtain ⟨i, rest, rfl, husable, rfl, rfl⟩ := exists_image_of_readPacket h
  refine ⟨fun more => ?_, i, rest, rfl, rfl, ?_⟩
  · have hread := i.packet.image.readPacket_image maxCores more
    rw [PacketImage.fields_image_packet husable.1, PacketHeader.fault?_eq_none_iff.2 husable,
      i.packet.bytes_image, ← Packet.arrived, PacketImage.arrived_packet husable.1] at hread
    exact hread
  · rw [List.take_left]
    exact PacketImage.wire_packet_eq_iff husable.1

/-- The bytes of a packet with 2 as its kernel byte and a command line that is broken off. -/
def roughBytes : List UInt8 :=
  [2, 1, 3, 1, 0, 0, 0, 9, 0, 0, 0, 0, 0, 0, 0, 0, 0, 0, 0, 40] ++ [0, 0, 0, 5, 0, 0, 0, 6] ++
    [0x73, 0xC3, 0] ++ [0xC3, 0xA9, 0]

theorem readPacket_rewritten_rough :
    ∃ p, readPacket 4 (roughBytes ++ [7]) = .packet p 34 ∧ p.header.kernel = true ∧
      p.cmdline = "s\uFFFD" ∧ p.executable = "é" ∧
      readPacket 4 (p.wire ++ [7]) = .packet p p.wire.length ∧ p.wire ≠ roughBytes := by
  have hread : ∃ p, readPacket 4 (roughBytes ++ [7]) = .packet p 34 := ⟨_, rfl⟩
  obtain ⟨p, hread⟩ := hread
  obtain ⟨hagain, i, rest, hbytes, hn, hiff⟩ := readPacket_rewritten hread
  cases hread
  refine ⟨_, rfl, rfl, by decide +kernel, by decide +kernel, hagain [7], fun hsame => ?_⟩
  have hfirst := congrArg List.head? hbytes
  rw [PacketImage.bytes, i.toList_header] at hfirst
  have hkernel := (hiff.1 hsame).1
  rw [← Option.some.inj hfirst] at hkernel
  exact absurd hkernel (by decide)

end CounterTrace
