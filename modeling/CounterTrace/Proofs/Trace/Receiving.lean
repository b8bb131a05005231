import CounterTrace.Proofs.Frame.Content
import CounterTrace.Proofs.Trace.Splitting

/-!
# Receiving what a stream holds

A stream may break off anywhere.  With a writer that never fails, receiving it files the description
and the packets that are whole and can be used, closes the traces and writes the index; the packets
that are whole but cannot be used are counted under their faults.

    c.bytes = pieces.flatten → c.Received j n pieces            (StreamContent.received)
    left.bytes = c.bytes.take k → left.items = c.items.take m, the items that end at or before k
                                                                (receive_keeps_whole_frames)
-/

namespace CounterTrace

open TraceWriter Splitter

variable {w : Type} [TraceWriter w]

namespace StreamContent

theorem packetsOf_frames (c : StreamContent) (maxCores : Nat) :
    packetsOf (c.frames maxCores) = c.packets maxCores := by
  cases c with
  | opening => rfl
  | session text images tail htext htail =>
    have hpackets := packetsOf_packets ((images.filter (·.Usable maxCores)).map PacketImage.packet)
    rw [List.map_map] at hpackets
    rw [frames_session, packetsOf_description, packets, images_session]
    exact hpackets

theorem core_of_mem_packets {c : StreamContent} {maxCores : Nat} {p : Packet}
    (hp : p ∈ c.packets maxCores) : p.header.core.toNat < maxCores := by
  obtain ⟨i, hi, rfl⟩ := List.mem_map.1 hp
  have husable : i.Usable maxCores := of_decide_eq_true (List.mem_filter.1 hi).2
  exact husable.2.1

/-- Receiving a stream handles all that is whole in it, and it ends with the index. -/
def Received (c : StreamContent) (j : w) (maxCores : Nat) (pieces : List (List UInt8)) : Prop :=
  ∃ s : Splitter w,
    processAll (c.frames maxCores) (new j maxCores) =
      (.ok (), s, (c.packets maxCores).length) ∧
    s.writer = after j (callsFor maxCores [] (c.frames maxCores)) ∧
    s.stats.dropped = 0 ∧
    s.finish = (.ok (), after s.writer (s.streams.map .close ++ [.index s.entries])) ∧
    (new j maxCores).receive ⟨pieces, none⟩ =
      { outcome := .ok ()
        writer := s.finish.2
        packets := (c.packets maxCores).length
        dropped := some
          { tooManyCounters := c.images.countP fun i => maxCounters < i.fields.counterCount.toNat
            coreOutOfRange := c.images.countP fun i =>
              i.fields.counterCount.toNat ≤ maxCounters ∧ maxCores ≤ i.fields.core.toNat
            noSamples := c.images.countP fun i =>
              i.fields.counterCount.toNat ≤ maxCounters ∧ i.fields.core.toNat < maxCores ∧
                i.fields.quantity = 0 } }

variable {j : w} (hj : NeverFails j)
include hj

/-- The frames of a stream are handled to the last, and no packet among them is dropped. -/
theorem processAll_frames (maxCores : Nat) (c : StreamContent) :
    ∃ s, processAll (c.frames maxCores) (new j maxCores) =
        (.ok (), s, (c.packets maxCores).length) ∧
      Filed j (callsFor maxCores [] (c.frames maxCores)) (c.packets maxCores) s ∧
      s.stats.dropped = 0 := by
  obtain ⟨s, hrun, hs, -, hdropped⟩ :=
    processAll_filed hj (filed_new j maxCores) (c.frames maxCores)
  have hmax : (new j maxCores).maxCores = maxCores := rfl
  have hall : inRange maxCores (c.packets maxCores) = c.packets maxCores :=
    List.filter_eq_self.2 fun p hp => decide_eq_true (core_of_mem_packets hp)
  have hnone : (c.packets maxCores).countP (maxCores ≤ ·.header.core.toNat) = 0 :=
    List.countP_eq_zero.2 fun p hp => by simpa using core_of_mem_packets hp
  rw [packetsOf_frames] at hrun hs hdropped
  rw [hmax, hall, List.nil_append, List.nil_append] at hs
  rw [hmax, hnone] at hdropped
  exact ⟨s, hrun, hs, hdropped⟩

theorem received (maxCores : Nat) (c : StreamContent) {pieces : List (List UInt8)}
    (hpieces : pieces.flatten = c.bytes) : c.Received j maxCores pieces := by
  obtain ⟨s, hrun, hs, hdropped⟩ := c.processAll_frames hj maxCores
  have hmax : (new j maxCores).maxCores = maxCores := rfl
  have hfinish := finish_eq hj hs
  rw [List.append_assoc, after_append, ← hs.writer] at hfinish
  obtain ⟨left, hdecode, -, hcounts⟩ := FrameDecoder.run_content maxCores c hpieces
  rw [FaultCounts.countAll_images] at hcounts
  simp only [Nat.zero_add] at hcounts
  refine ⟨s, hrun, hs.writer, hdropped, hfinish, ?_⟩
  -- the end, clean or inside a frame, is the end of the session
  simp only [receive, hmax, hdecode, hrun, ← hcounts]
  by_cases htail : c.tail = []
  · simp only [htail, if_true, hfinish]
  · simp only [htail, if_false, hfinish]

end StreamContent

/-- **A stream that breaks off loses only its end.**  Whatever bytes come, in whatever pieces, they
are a description and packets that are whole and a tail; all that is whole is received, and the
index is written.  Of a stream that is cut at a byte, whatever ends at or before the byte is
received in the same way. -/
theorem receive_keeps_whole_frames {j : w} (hj : NeverFails j) (maxCores : Nat)
    (pieces : List (List UInt8)) :
    (∃ c : StreamContent, c.bytes = pieces.flatten) ∧
    ∀ c : StreamContent, c.bytes = pieces.flatten →
      c.Received j maxCores pieces ∧
      ∀ (k : Nat) (cut : List (List UInt8)), cut.flatten = pieces.flatten.take k →
        ∃ left : StreamContent, left.bytes = cut.flatten ∧ left.Received j maxCores cut ∧
          ∃ m ≤ c.items.length, left.items = c.items.take m ∧
            ∀ n ≤ c.items.length,
              n ≤ m ↔ ((c.items.take n).flatMap StreamItem.bytes).length ≤ k := by
  refine ⟨StreamContent.exists_of _, fun c hc => ⟨c.received hj maxCores hc.symm, ?_⟩⟩
  intro k cut hcut
  obtain ⟨left, hleft, hitems⟩ := c.exists_cut k
  rw [hc, ← hcut] at hleft
  exact ⟨left, hleft, left.received hj maxCores hleft.symm, hitems⟩

theorem brokenOff_counters : ∀ g ∈ [((5 : UInt32), [(9 : UInt32)])],
    g.2.length = (1 : UInt8).toNat := by
  decide

/-- A description, a packet of process 7 on core 2 and two bytes of another packet. -/
def brokenOff : StreamContent :=
  .session [100]
    [{ header := #v[0, 1, 2, 1, 0, 0, 0, 0, 0, 0, 0, 0, 0, 0, 0, 0, 0, 0, 0, 7]
       groups := [(5, [9])]
       cmdline := [97]
       executable := []
       length_groups := rfl
       length_counters := brokenOff_counters
       cmdline_nul := by decide
       executable_nul := by decide }]
    [0, 1] (by decide) ((@readPacket_eq_incomplete_iff 4 _).1 rfl)

/-- Its packet is received; cut after 20 bytes it is a description and nothing else. -/
theorem receive_keeps_whole_frames_broken_off :
    NeverFails ({} : TraceJournal) ∧
    brokenOff.Received ({} : TraceJournal) 4 [brokenOff.bytes] ∧
    (brokenOff.packets 4).length = 1 ∧
    ∃ left : StreamContent, left.bytes = brokenOff.bytes.take 20 ∧
      left.Received ({} : TraceJournal) 4 [brokenOff.bytes.take 20] ∧
      left.items = brokenOff.items.take 1 := by
  have hj : NeverFails ({} : TraceJournal) := TraceJournal.neverFails rfl
  obtain ⟨hreceived, hcut⟩ :=
    (receive_keeps_whole_frames hj 4 [brokenOff.bytes]).2 brokenOff
      (List.flatten_singleton ..).symm
  obtain ⟨left, hleft, hkept, m, -, hitems, hends⟩ :=
    hcut 20 [brokenOff.bytes.take 20] (by rw [List.flatten_singleton, List.flatten_singleton])
  rw [List.flatten_singleton] at hleft
  have hfirst : 1 ≤ m := (hends 1 (by decide)).2 (by decide)
  have hsecond : ¬ 2 ≤ m := fun h => absurd ((hends 2 (by decide)).1 h) (by decide)
  obtain rfl : m = 1 := by omega
  exact ⟨hj, hreceived, by decide, left, hleft, hkept, hitems⟩

end CounterTrace
