import CounterTrace.Packet
import CounterTrace.Bytes.Word

/-!
# Packets on the wire

A packet is a header of 20 bytes, one group of words for each sample and two texts, each ended by
NUL; words have their highest byte first.  Of the cycles the low 32 bits travel, and the process of
the samples is that of the header.

    readPacket n (p.wire ++ rest)       the packet and the length of `p.wire`
    readPacket n bytes = incomplete     as long as the packet is not whole

A whole packet that cannot be used is reported with its length, so that reading can go on after it.
-/

namespace CounterTrace

open Bytes

def packetHeaderSize : Nat := 20

def groupSize (counters : Nat) : Nat := (1 + counters) * 4

/-! ## Writing -/

/-- A text as it travels: without NULs, and a NUL at its end. -/
def wireText (s : String) : List UInt8 := (Utf8.encode s).filter (· != 0) ++ [0]

/-- The header in front of the given numbers of counters and samples. -/
def PacketHeader.wire (h : PacketHeader) (counters quantity : Nat) : List UInt8 :=
  [if h.kernel then 1 else 0, UInt8.ofNat counters, h.core, UInt8.ofNat quantity] ++
    be32 h.batch ++ be32 h.missed ++ be32 h.firstIndex ++ be32 h.pid

/-- One sample with its first counters. -/
def Sample.wire (s : Sample) (counters : Nat) : List UInt8 :=
  be32 (UInt32.ofNat s.cycles.toNat) ++ (s.counters.toList.take counters).flatMap be32

/-- A packet.  At most 255 samples and six counters of each are written. -/
def Packet.wire (p : Packet) : List UInt8 :=
  let quantity := min p.samples.length maxQuantity
  let counters := min p.header.counterCount.toNat maxCounters
  p.header.wire counters quantity ++
    (p.samples.take quantity).flatMap (·.wire counters) ++
    wireText p.cmdline ++ wireText p.executable

/-- The length that the header and the texts of a packet announce. -/
def Packet.wireLength (p : Packet) : Nat :=
  packetHeaderSize + p.samples.length * groupSize p.header.counterCount.toNat +
    (wireText p.cmdline).length + (wireText p.executable).length

/-! ## Reading -/

/-- Why a whole packet cannot be used. -/
inductive PacketFault where
  | tooManyCounters (count : UInt8)
  | coreOutOfRange (core : UInt8) (maxCores : Nat)
  | noSamples
  deriving DecidableEq, Repr

namespace PacketFault

def message : PacketFault → String
  | tooManyCounters n => s!"packet declares {n} counters, at most {maxCounters} supported"
  | coreOutOfRange core max => s!"packet core {core} outside configured range 0..{max}"
  | noSamples => "packet carries no samples"

def kind : PacketFault → String
  | tooManyCounters _ => "too_many_counters"
  | coreOutOfRange .. => "core_out_of_range"
  | noSamples => "empty_packet"

end PacketFault

/-- What stands at the front of a byte list. -/
inductive PacketRead where
  | incomplete
  | packet (p : Packet) (length : Nat)
  | malformed (fault : PacketFault) (length : Nat)
  deriving DecidableEq, Repr

def takeExactly (n : Nat) (bs : List UInt8) : Option (List UInt8 × List UInt8) :=
  let front := bs.take n
  if front.length = n then some (front, bs.drop n) else none

/-- Takes the bytes in front of the first NUL, and the NUL. -/
def takeText (bs : List UInt8) : Option (List UInt8 × List UInt8) :=
  match bs.dropWhile (· != 0) with
  | [] => none
  | _ :: rest => some (bs.takeWhile (· != 0), rest)

def takeHeader : List UInt8 → Option (PacketHeader × List UInt8)
  | kernel :: counters :: core :: quantity :: bs => do
    let (batch, bs) ← takeBE32 bs
    let (missed, bs) ← takeBE32 bs
    let (firstIndex, bs) ← takeBE32 bs
    let (pid, bs) ← takeBE32 bs
    some ({ kernel := kernel != 0, counterCount := counters, core := core, quantity := quantity
            batch := batch, missed := missed, firstIndex := firstIndex, pid := pid }, bs)
  | _ => none

/-- The samples of a packet body, as many as there are whole groups. -/
def readSamples (counters : Nat) (pid : UInt32) : Nat → List UInt8 → List Sample
  | 0, _ => []
  | n + 1, bs =>
    match takeWords takeBE32 (1 + counters) bs with
    | some (cycles :: values, bs) =>
      ⟨UInt64.ofNat cycles.toNat, pid, Sample.countersOf values⟩ :: readSamples counters pid n bs
    | _ => []

/-- The fault of a whole packet with this header, if it has one. -/
def PacketHeader.fault? (h : PacketHeader) (maxCores : Nat) : Option PacketFault :=
  if maxCounters < h.counterCount.toNat then some (.tooManyCounters h.counterCount)
  else if maxCores ≤ h.core.toNat then some (.coreOutOfRange h.core maxCores)
  else if h.quantity = 0 then some .noSamples
  else none

/-- The four parts of a whole packet at the front of a byte list, as they stand there. -/
def splitPacket (bs : List UInt8) :
    Option (PacketHeader × List UInt8 × List UInt8 × List UInt8) := do
  let (header, bs) ← takeHeader bs
  let (body, bs) ← takeExactly (header.quantity.toNat * groupSize header.counterCount.toNat) bs
  let (cmdline, bs) ← takeText bs
  let (executable, _) ← takeText bs
  some (header, body, cmdline, executable)

/-- Reads the packet at the front of a byte list, for cores below `maxCores`. -/
def readPacket (maxCores : Nat) (bs : List UInt8) : PacketRead :=
  match splitPacket bs with
  | none => .incomplete
  | some (header, body, cmdline, executable) =>
    let length := packetHeaderSize + body.length + (cmdline.length + 1) + (executable.length + 1)
    match header.fault? maxCores with
    | some fault => .malformed fault length
    | none =>
      .packet
        { header := header
          samples := readSamples header.counterCount.toNat header.pid header.quantity.toNat body
          cmdline := Utf8.decodeLenient cmdline
          executable := Utf8.decodeLenient executable }
        length

/-! ## Lemmas -/

theorem takeExactly_eq_some {n : Nat} {bs front rest : List UInt8}
    (h : takeExactly n bs = some (front, rest)) : bs = front ++ rest ∧ front.length = n := by
  simp only [takeExactly] at h
  split at h
  · next hn =>
    simp only [Option.some.injEq, Prod.mk.injEq] at h
    obtain ⟨rfl, rfl⟩ := h
    exact ⟨(List.take_append_drop n bs).symm, hn⟩
  · simp at h

theorem takeText_eq_some {bs text rest : List UInt8} (h : takeText bs = some (text, rest)) :
    bs = text ++ 0 :: rest := by
  simp only [takeText] at h
  split at h
  · simp at h
  · next b tail hd =>
    simp only [Option.some.injEq, Prod.mk.injEq] at h
    obtain ⟨rfl, rfl⟩ := h
    have hb : b = 0 := by
      have := List.head?_dropWhile_not (fun x : UInt8 => x != 0) bs
      simpa [hd] using this
    subst hb
    rw [← hd, List.takeWhile_append_dropWhile]

theorem takeBE32_length {bs rest : List UInt8} {w : UInt32} (h : takeBE32 bs = some (w, rest)) :
    bs.length = rest.length + 4 := by
  match bs, h with
  | _ :: _ :: _ :: _ :: _, h =>
    simp only [takeBE32, Option.some.injEq, Prod.mk.injEq] at h
    simp [h.2]

theorem takeHeader_length {bs rest : List UInt8} {h : PacketHeader}
    (hh : takeHeader bs = some (h, rest)) : bs.length = rest.length + packetHeaderSize := by
  match bs, hh with
  | _ :: _ :: _ :: _ :: bs, hh =>
    simp only [takeHeader, Option.bind_eq_bind, Option.bind_eq_some_iff, Prod.exists,
      Option.some.injEq, Prod.mk.injEq] at hh
    obtain ⟨_, _, h1, _, _, h2, _, _, h3, _, _, h4, -, rfl⟩ := hh
    have := takeBE32_length h1
    have := takeBE32_length h2
    have := takeBE32_length h3
    have := takeBE32_length h4
    simp only [List.length_cons, packetHeaderSize]
    omega

/-- A whole packet has at least a header and two NULs, and no more bytes than there are. -/
theorem splitPacket_length {bs body cmdline executable : List UInt8} {header : PacketHeader}
    (h : splitPacket bs = some (header, body, cmdline, executable)) :
    packetHeaderSize + body.length + (cmdline.length + 1) + (executable.length + 1) ≤ bs.length := by
  simp only [splitPacket, Option.bind_eq_bind, Option.bind_eq_some_iff, Prod.exists,
    Option.some.injEq, Prod.mk.injEq] at h
  obtain ⟨_, r1, h1, _, r2, h2, _, r3, h3, _, r4, h4, rfl, rfl, rfl, rfl⟩ := h
  have e1 := takeHeader_length h1
  have e2 := congrArg List.length (takeExactly_eq_some h2).1
  have e3 := congrArg List.length (takeText_eq_some h3)
  have e4 := congrArg List.length (takeText_eq_some h4)
  simp only [List.length_append, List.length_cons] at e2 e3 e4
  omega

theorem readPacket_packet_length {maxCores n : Nat} {bs : List UInt8} {p : Packet}
    (h : readPacket maxCores bs = .packet p n) : 22 ≤ n ∧ n ≤ bs.length := by
  unfold readPacket at h
  split at h
  · simp at h
  · next hs =>
    have := splitPacket_length hs
    split at h
    · simp at h
    · simp only [PacketRead.packet.injEq] at h
      simp only [packetHeaderSize] at h this
      omega

theorem readPacket_malformed_length {maxCores n : Nat} {bs : List UInt8} {fault : PacketFault}
    (h : readPacket maxCores bs = .malformed fault n) : 22 ≤ n ∧ n ≤ bs.length := by
  unfold readPacket at h
  split at h
  · simp at h
  · next hs =>
    have := splitPacket_length hs
    split at h
    · simp only [PacketRead.malformed.injEq] at h
      simp only [packetHeaderSize] at h this
      omega
    · simp at h

end CounterTrace
