import CounterTrace.Proofs.Packet.Reading

/-!
# Packet images

An image is a packet as it lies in a stream, usable or not: twenty header bytes of any value, as
many groups of words as the header announces, and two texts that end with NUL.  Reading takes
exactly one image off the front of a stream.

    readPacket n (i.bytes ++ rest)  is  packet i.packet i.bytes.length        without a fault
                                        malformed fault i.bytes.length        with one
                                                                       (readPacket_image)

Every packet that is written has an image (`Packet.bytes_image`), so that writing and then reading
is a case of reading an image.
-/

namespace CounterTrace

open Bytes

/-! ## Headers -/

/-- The fields that twenty bytes stand for. -/
def PacketHeader.ofBytes (h : Vector UInt8 20) : PacketHeader where
  kernel := h[0] != 0
  counterCount := h[1]
  core := h[2]
  quantity := h[3]
  batch := word h[4] h[5] h[6] h[7]
  missed := word h[8] h[9] h[10] h[11]
  firstIndex := word h[12] h[13] h[14] h[15]
  pid := word h[16] h[17] h[18] h[19]

theorem toList_twenty (h : Vector UInt8 20) :
    h.toList = [h[0], h[1], h[2], h[3], h[4], h[5], h[6], h[7], h[8], h[9], h[10], h[11], h[12],
      h[13], h[14], h[15], h[16], h[17], h[18], h[19]] := by
  have hv : Vector.ofFn (fun i : Fin 20 => h[i]) = h := Vector.ofFn_getElem
  rw [← congrArg Vector.toList hv, Vector.toList_ofFn]
  rfl

theorem takeHeader_toList (h : Vector UInt8 20) (rest : List UInt8) :
    takeHeader (h.toList ++ rest) = some (PacketHeader.ofBytes h, rest) := by
  rw [toList_twenty]
  rfl

/-- A header is free of faults if all three things that are checked are in order. -/
theorem PacketHeader.fault?_eq_none_iff {h : PacketHeader} {maxCores : Nat} :
    h.fault? maxCores = none ↔
      h.counterCount.toNat ≤ maxCounters ∧ h.core.toNat < maxCores ∧ h.quantity ≠ 0 := by
  unfold PacketHeader.fault?
  by_cases hcounters : maxCounters < h.counterCount.toNat
  · rw [if_pos hcounters]
    exact ⟨nofun, fun hok => absurd hok.1 (Nat.not_le.2 hcounters)⟩
  by_cases hcore : maxCores ≤ h.core.toNat
  · rw [if_neg hcounters, if_pos hcore]
    exact ⟨nofun, fun hok => absurd hok.2.1 (Nat.not_lt.2 hcore)⟩
  by_cases hquantity : h.quantity = 0
  · rw [if_neg hcounters, if_neg hcore, if_pos hquantity]
    exact ⟨nofun, fun hok => absurd hquantity hok.2.2⟩
  · rw [if_neg hcounters, if_neg hcore, if_neg hquantity]
    exact ⟨fun _ => ⟨Nat.not_lt.1 hcounters, Nat.not_le.1 hcore, hquantity⟩, fun _ => rfl⟩

/-! ## Groups -/

/-- The bytes of a sample: its cycles and its counters. -/
def groupBytes (g : UInt32 × List UInt32) : List UInt8 := (g.1 :: g.2).flatMap be32

/-- The sample that a group of words stands for, in a packet of a process.  Counters that are not
there are zero. -/
def groupSample (pid : UInt32) (g : UInt32 × List UInt32) : Sample :=
  ⟨UInt64.ofNat g.1.toNat, pid, Sample.countersOf g.2⟩

theorem length_flatMap_be32 (ws : List UInt32) : (ws.flatMap be32).length = ws.length * 4 := by
  induction ws with
  | nil => rfl
  | cons w ws ih =>
    simp only [List.flatMap_cons, List.length_append, length_be32, ih, List.length_cons]
    omega

theorem length_flatMap_groupBytes {counters : Nat} {groups : List (UInt32 × List UInt32)}
    (h : ∀ g ∈ groups, g.2.length = counters) :
    (groups.flatMap groupBytes).length = groups.length * groupSize counters := by
  induction groups with
  | nil => simp
  | cons g groups ih =>
    have hg : (groupBytes g).length = groupSize counters := by
      simp only [groupBytes, length_flatMap_be32, List.length_cons, groupSize,
        h g List.mem_cons_self]
      omega
    rw [List.flatMap_cons, List.length_append, hg, List.length_cons, Nat.succ_mul,
      ih fun g' hg' => h g' (List.mem_cons_of_mem _ hg')]
    omega

theorem readSamples_groups (pid : UInt32) {counters : Nat} {groups : List (UInt32 × List UInt32)}
    (h : ∀ g ∈ groups, g.2.length = counters) (rest : List UInt8) :
    readSamples counters pid groups.length (groups.flatMap groupBytes ++ rest) =
      groups.map (groupSample pid) := by
  induction groups with
  | nil => rfl
  | cons g groups ih =>
    have hg : 1 + counters = (g.1 :: g.2).length := by
      simp only [List.length_cons, h g List.mem_cons_self]
      omega
    have := ih fun g' hg' => h g' (List.mem_cons_of_mem _ hg')
    rw [List.flatMap_cons, groupBytes, List.append_assoc, List.length_cons, readSamples, hg,
      takeWords_flatMap]
    simp only [this, List.map_cons, groupSample]

/-! ## Images -/

/-- A packet as it lies in a stream. -/
structure PacketImage where
  header : Vector UInt8 20
  /-- For each sample its cycles and its counters. -/
  groups : List (UInt32 × List UInt32)
  cmdline : List UInt8
  executable : List UInt8
  length_groups : groups.length = header[3].toNat
  length_counters : ∀ g ∈ groups, g.2.length = header[1].toNat
  cmdline_nul : 0 ∉ cmdline
  executable_nul : 0 ∉ executable

namespace PacketImage

def fields (i : PacketImage) : PacketHeader := .ofBytes i.header

def bytes (i : PacketImage) : List UInt8 :=
  i.header.toList ++ i.groups.flatMap groupBytes ++ i.cmdline ++ 0 :: i.executable ++ [0]

/-- The packet that an image stands for. -/
def packet (i : PacketImage) : Packet where
  header := i.fields
  samples := i.groups.map (groupSample i.fields.pid)
  cmdline := Utf8.decodeLenient i.cmdline
  executable := Utf8.decodeLenient i.executable

/-- Whether the image can be used as a packet. -/
def Usable (maxCores : Nat) (i : PacketImage) : Prop :=
  i.fields.counterCount.toNat ≤ maxCounters ∧ i.fields.core.toNat < maxCores ∧ i.fields.quantity ≠ 0

instance (maxCores : Nat) (i : PacketImage) : Decidable (i.Usable maxCores) :=
  inferInstanceAs (Decidable (_ ∧ _ ∧ _))

theorem splitPacket_bytes (i : PacketImage) (rest : List UInt8) :
    splitPacket (i.bytes ++ rest) =
      some (i.fields, i.groups.flatMap groupBytes, i.cmdline, i.executable) := by
  have hbody : (i.groups.flatMap groupBytes).length =
      i.fields.quantity.toNat * groupSize i.fields.counterCount.toNat := by
    rw [length_flatMap_groupBytes i.length_counters, i.length_groups]
    rfl
  have hheader : ∀ rest, takeHeader (i.header.toList ++ rest) = some (i.fields, rest) :=
    takeHeader_toList i.header
  simp only [bytes, List.append_assoc, List.cons_append, List.nil_append]
  simp only [splitPacket, hheader, takeExactly_append hbody, takeText_append i.cmdline_nul,
    takeText_append i.executable_nul, Option.bind_eq_bind, Option.bind_some]

theorem length_bytes (i : PacketImage) :
    i.bytes.length = packetHeaderSize + (i.groups.flatMap groupBytes).length +
      (i.cmdline.length + 1) + (i.executable.length + 1) := by
  simp only [bytes, List.length_append, Vector.length_toList, List.length_cons, List.length_nil,
    packetHeaderSize]
  omega

/-- Reading takes exactly one image off the front. -/
theorem readPacket_image (maxCores : Nat) (i : PacketImage) (rest : List UInt8) :
    readPacket maxCores (i.bytes ++ rest) =
      match i.fields.fault? maxCores with
      | some fault => .malformed fault i.bytes.length
      | none => .packet i.packet i.bytes.length := by
  have hsamples : readSamples i.fields.counterCount.toNat i.fields.pid i.fields.quantity.toNat
      (i.groups.flatMap groupBytes) = i.groups.map (groupSample i.fields.pid) := by
    have := readSamples_groups i.fields.pid i.length_counters []
    rw [List.append_nil, i.length_groups] at this
    exact this
  simp only [readPacket, splitPacket_bytes, hsamples, ← length_bytes]
  rfl

end PacketImage

/-! ## Written packets -/

/-- What arrives of a sample that travels with its first counters in a packet of a process: the low
32 bits of the cycles and these counters. -/
def Sample.received (s : Sample) (counters : Nat) (pid : UInt32) : Sample :=
  groupSample pid (UInt32.ofNat s.cycles.toNat, s.counters.toList.take counters)

namespace Packet

def wireCounters (p : Packet) : Nat := min p.header.counterCount.toNat maxCounters

def wireQuantity (p : Packet) : Nat := min p.samples.length maxQuantity

theorem toNat_ofNat_wireCounters (p : Packet) :
    (UInt8.ofNat p.wireCounters).toNat = p.wireCounters := by
  have : p.wireCounters ≤ maxCounters := Nat.min_le_right ..
  rw [maxCounters] at this
  exact UInt8.toNat_ofNat_of_lt' (show p.wireCounters < 256 by omega)

theorem toNat_ofNat_wireQuantity (p : Packet) :
    (UInt8.ofNat p.wireQuantity).toNat = p.wireQuantity := by
  have : p.wireQuantity ≤ maxQuantity := Nat.min_le_right ..
  rw [maxQuantity] at this
  exact UInt8.toNat_ofNat_of_lt' (show p.wireQuantity < 256 by omega)

def image (p : Packet) : PacketImage where
  header := ⟨⟨p.header.wire p.wireCounters p.wireQuantity⟩, rfl⟩
  groups := (p.samples.take p.wireQuantity).map fun s =>
    (UInt32.ofNat s.cycles.toNat, s.counters.toList.take p.wireCounters)
  cmdline := (Utf8.encode p.cmdline).filter (· != 0)
  executable := (Utf8.encode p.executable).filter (· != 0)
  length_groups := by
    have : p.wireQuantity ≤ p.samples.length := Nat.min_le_left ..
    rw [List.length_map, List.length_take, Nat.min_eq_left this]
    exact p.toNat_ofNat_wireQuantity.symm
  length_counters := by
    intro g hg
    obtain ⟨s, -, rfl⟩ := List.mem_map.1 hg
    have : p.wireCounters ≤ maxCounters := Nat.min_le_right ..
    rw [List.length_take, Vector.length_toList, Nat.min_eq_left this]
    exact p.toNat_ofNat_wireCounters.symm
  cmdline_nul := by simp
  executable_nul := by simp

theorem bytes_image (p : Packet) : p.image.bytes = p.wire := by
  have hsamples : p.image.groups.flatMap groupBytes =
      (p.samples.take p.wireQuantity).flatMap (·.wire p.wireCounters) := by
    rw [image, List.flatMap_map]
    rfl
  rw [PacketImage.bytes, hsamples, Packet.wire, wireText, wireText]
  simp only [List.append_assoc, List.cons_append, List.nil_append]
  rfl

/-- The packet that arrives of a written one. -/
theorem packet_image (p : Packet) :
    p.image.packet =
      { header :=
          { p.header with
            counterCount := UInt8.ofNat p.wireCounters
            quantity := UInt8.ofNat p.wireQuantity }
        samples := (p.samples.take p.wireQuantity).map
          (·.received p.wireCounters p.header.pid)
        cmdline := Utf8.decodeLenient ((Utf8.encode p.cmdline).filter (· != 0))
        executable := Utf8.decodeLenient ((Utf8.encode p.executable).filter (· != 0)) } := by
  have hfields : p.image.fields =
      { p.header with
        counterCount := UInt8.ofNat p.wireCounters
        quantity := UInt8.ofNat p.wireQuantity } := by
    have hkernel : ((if p.header.kernel then 1 else 0 : UInt8) != 0) = p.header.kernel := by
      cases p.header.kernel <;> rfl
    rw [PacketHeader.mk.injEq]
    exact ⟨hkernel, rfl, rfl, rfl, word_byteAt _, word_byteAt _, word_byteAt _, word_byteAt _⟩
  rw [PacketImage.packet, hfields, image, List.map_map]
  rfl

end Packet

end CounterTrace
