import CounterTrace.Proofs.Frame.Pieces
import CounterTrace.Proofs.Packet.Image

/-!
# Skipping packets

A stream of packet images is decoded image by image.  One that can be used becomes a frame with the
values of its fields, every other is skipped to its end and counted under its first fault; none of
them touches its neighbours.

    ((ofPackets n).feed (images.flatMap bytes)).drain
        = (the packets of the usable images, the counts of the others)          (drain_images)
-/

namespace CounterTrace

open Bytes

namespace FaultCounts

def countAll (c : FaultCounts) (faults : List PacketFault) : FaultCounts := faults.foldl count c

/-- The counts of a list of images, by what is wrong with each. -/
theorem countAll_images (maxCores : Nat) (images : List PacketImage) (c : FaultCounts) :
    c.countAll (images.filterMap (·.fields.fault? maxCores)) =
      { tooManyCounters := c.tooManyCounters +
          images.countP fun i => maxCounters < i.fields.counterCount.toNat
        coreOutOfRange := c.coreOutOfRange + images.countP fun i =>
          i.fields.counterCount.toNat ≤ maxCounters ∧ maxCores ≤ i.fields.core.toNat
        noSamples := c.noSamples + images.countP fun i =>
          i.fields.counterCount.toNat ≤ maxCounters ∧ i.fields.core.toNat < maxCores ∧
            i.fields.quantity = 0 } := by
  induction images generalizing c with
  | nil => rfl
  | cons i images ih =>
    have hcons : ∀ fault, i.fields.fault? maxCores = some fault →
        c.countAll ((i :: images).filterMap (·.fields.fault? maxCores)) =
          (c.count fault).countAll (images.filterMap (·.fields.fault? maxCores)) := by
      intro fault hf
      rw [List.filterMap_cons, hf]
      rfl
    -- the checks in their order: the first that fails decides what is counted
    by_cases hcounters : maxCounters < i.fields.counterCount.toNat
    · have hf : i.fields.fault? maxCores = some (.tooManyCounters i.fields.counterCount) := by
        simp only [PacketHeader.fault?, hcounters, if_true]
      rw [hcons _ hf, ih]
      simp [count, hcounters, Nat.not_le.2 hcounters, Nat.add_right_comm, ← Nat.add_assoc]
    by_cases hcore : maxCores ≤ i.fields.core.toNat
    · have hf : i.fields.fault? maxCores = some (.coreOutOfRange i.fields.core maxCores) := by
        simp only [PacketHeader.fault?, hcounters, hcore, if_true, if_false]
      rw [hcons _ hf, ih]
      simp [count, hcounters, hcore, Nat.not_lt.1 hcounters, Nat.not_lt.2 hcore,
        Nat.add_right_comm, ← Nat.add_assoc]
    by_cases hquantity : i.fields.quantity = 0
    · have hf : i.fields.fault? maxCores = some .noSamples := by
        simp only [PacketHeader.fault?, hcounters, hcore, hquantity, if_true, if_false]
      rw [hcons _ hf, ih]
      simp [count, hcounters, hcore, hquantity, Nat.not_lt.1 hcounters, Nat.not_le.1 hcore,
        Nat.add_right_comm, ← Nat.add_assoc]
    · have hf : i.fields.fault? maxCores = none :=
        PacketHeader.fault?_eq_none_iff.2
          ⟨Nat.not_lt.1 hcounters, Nat.not_le.1 hcore, hquantity⟩
      rw [List.filterMap_cons, hf]
      simp [ih, hcounters, hcore, hquantity]

end FaultCounts

namespace FrameDecoder

theorem drain_congr {d d' : FrameDecoder} (h : d.next = d'.next) : d.drain = d'.drain := by
  rw [drain, drain, h]

/-- Draining takes images one by one off the front of bytes that make no packet. -/
theorem drain_images {maxCores : Nat} {rest : List UInt8}
    (hrest : readPacket maxCores rest = .incomplete) (images : List PacketImage)
    (c : FaultCounts) :
    drain ⟨false, maxCores, c, images.flatMap PacketImage.bytes ++ rest⟩ =
      ((images.filter (·.Usable maxCores)).map (.packet ·.packet),
        ⟨false, maxCores, c.countAll (images.filterMap (·.fields.fault? maxCores)), rest⟩) := by
  induction images generalizing c with
  | nil =>
    refine drain_of_none ?_
    simp [next, nextPacket_of_incomplete hrest, FaultCounts.countAll, Except.map]
  | cons i images ih =>
    have hread := i.readPacket_image maxCores (images.flatMap PacketImage.bytes ++ rest)
    rw [List.flatMap_cons, List.append_assoc]
    cases hf : i.fields.fault? maxCores with
    | none =>
      have hu : i.Usable maxCores := PacketHeader.fault?_eq_none_iff.1 hf
      rw [hf] at hread
      have hnext : next ⟨false, maxCores, c,
          i.bytes ++ (images.flatMap PacketImage.bytes ++ rest)⟩ =
          (.ok (some (.packet i.packet)),
            ⟨false, maxCores, c, images.flatMap PacketImage.bytes ++ rest⟩) := by
        simp [next, nextPacket_of_packet hread, Except.map]
      rw [drain_of_some hnext, ih]
      simp [hf, hu]
    | some fault =>
      have hu : ¬ i.Usable maxCores := fun h => by
        rw [PacketHeader.fault?_eq_none_iff.2 h] at hf
        cases hf
      rw [hf] at hread
      have hnext : next ⟨false, maxCores, c,
          i.bytes ++ (images.flatMap PacketImage.bytes ++ rest)⟩ =
          next ⟨false, maxCores, c.count fault,
            images.flatMap PacketImage.bytes ++ rest⟩ := by
        simp [next, nextPacket_of_malformed hread]
      rw [drain_congr hnext, ih]
      simp [hf, hu, FaultCounts.countAll]

theorem run_flatMap_bytes (maxCores : Nat) (images : List PacketImage) :
    (ofPackets maxCores).run ⟨[images.flatMap PacketImage.bytes], none⟩ =
      ((images.filter (·.Usable maxCores)).map (.packet ·.packet), .clean,
        ⟨false, maxCores, FaultCounts.countAll {} (images.filterMap (·.fields.fault? maxCores)),
          []⟩) := by
  have hempty : readPacket maxCores [] = .incomplete := rfl
  have hdrain := drain_images hempty images {}
  rw [List.append_nil] at hdrain
  have hfeed : (ofPackets maxCores).feed ([images.flatMap PacketImage.bytes].flatten) =
      ⟨false, maxCores, {}, images.flatMap PacketImage.bytes⟩ := by
    simp [feed, ofPackets]
  rw [run_eq_drain (idle_ofPackets maxCores), hfeed, hdrain]
  rfl

/-- A session is its description and then packets, and it may end in bytes that make none. -/
theorem run_session (maxCores : Nat) {text tail : List UInt8} (htext : 0 ∉ text)
    (images : List PacketImage) (htail : readPacket maxCores tail = .incomplete)
    {pieces : List (List UInt8)}
    (hpieces : pieces.flatten = text ++ 0 :: (images.flatMap PacketImage.bytes ++ tail)) :
    (ofSession maxCores).run ⟨pieces, none⟩ =
      (.description ⟨Utf8.decodeLenient text⟩ ::
          (images.filter (·.Usable maxCores)).map (.packet ·.packet),
        if tail = [] then .clean else .truncated tail.length,
        ⟨false, maxCores, FaultCounts.countAll {} (images.filterMap (·.fields.fault? maxCores)),
          tail⟩) := by
  have hnext : next ((ofSession maxCores).feed pieces.flatten) =
      (.ok (some (.description ⟨Utf8.decodeLenient text⟩)),
        ⟨false, maxCores, {}, images.flatMap PacketImage.bytes ++ tail⟩) := by
    have htake := takeText_append htext (images.flatMap PacketImage.bytes ++ tail)
    simp only [next, feed, ofSession, List.nil_append, hpieces, htake, if_true]
  rw [run_eq_drain (idle_ofSession maxCores), drain_of_some hnext, drain_images htail]

/-- **Malformed packets leave their neighbours alone.**  Of a sequence of packet images every usable
one is decoded, in order and with its own values; every other one is skipped to its end and counted
once, under the first of its faults; no byte is left over.  The frames are those of the usable
images alone. -/
theorem run_images (maxCores : Nat) (images : List PacketImage) :
    ∃ left : FrameDecoder,
      (ofPackets maxCores).run ⟨[images.flatMap PacketImage.bytes], none⟩ =
        ((images.filter (·.Usable maxCores)).map (.packet ·.packet), .clean, left) ∧
      left.input = [] ∧
      left.dropped =
        { tooManyCounters := images.countP fun i => maxCounters < i.fields.counterCount.toNat
          coreOutOfRange := images.countP fun i =>
            i.fields.counterCount.toNat ≤ maxCounters ∧ maxCores ≤ i.fields.core.toNat
          noSamples := images.countP fun i =>
            i.fields.counterCount.toNat ≤ maxCounters ∧ i.fields.core.toNat < maxCores ∧
              i.fields.quantity = 0 } ∧
      (∀ i ∈ images, ¬ i.Usable maxCores → ∀ rest, ∃ fault,
        readPacket maxCores (i.bytes ++ rest) = .malformed fault i.bytes.length) ∧
      ((ofPackets maxCores).run
          ⟨[(images.filter (·.Usable maxCores)).flatMap PacketImage.bytes], none⟩).1 =
        ((ofPackets maxCores).run ⟨[images.flatMap PacketImage.bytes], none⟩).1 := by
  refine ⟨_, run_flatMap_bytes maxCores images, rfl, ?_, ?_, ?_⟩
  · rw [FaultCounts.countAll_images]
    simp only [Nat.zero_add]
  · intro i _ hu rest
    cases hf : i.fields.fault? maxCores with
    | none => exact absurd (PacketHeader.fault?_eq_none_iff.1 hf) hu
    | some fault =>
      refine ⟨fault, ?_⟩
      rw [i.readPacket_image, hf]
  · rw [run_flatMap_bytes, run_flatMap_bytes]
    simp

end FrameDecoder

end CounterTrace
