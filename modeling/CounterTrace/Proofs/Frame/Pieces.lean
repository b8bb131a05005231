import CounterTrace.Frame.Decoder
import CounterTrace.Proofs.Packet.Reading

/-!
# Decoding in pieces

A decoder does not see how its bytes were cut.  A frame that is whole stays whole when more bytes
come, and a decoder without a frame goes on from its left over bytes; so draining after each piece
gives the frames of the whole.

    (d.feed more).drain = d.drain's frames, then those of (d.drain.2.feed more)    (drain_feed)
    Idle d → feedAll pieces d = (d.feed pieces.flatten).drain                     (feedAll_eq_drain)

No step before the end of the stream goes wrong (`next_ok`), since every error in a whole packet
can be skipped.
-/

namespace CounterTrace.FrameDecoder

open Bytes

/-! ## The search for a packet -/

section
variable {maxCores : Nat} {counts counts' : FaultCounts} {bs rest : List UInt8}

theorem nextPacket_of_incomplete (h : readPacket maxCores bs = .incomplete) :
    nextPacket maxCores counts bs = (.ok none, counts, bs) := by
  rw [nextPacket]
  split <;> simp_all [PacketRead.result]

theorem nextPacket_of_packet {p : Packet} {n : Nat} (h : readPacket maxCores bs = .packet p n) :
    nextPacket maxCores counts bs = (.ok (some p), counts, bs.drop n) := by
  rw [nextPacket]
  split <;> simp_all [PacketRead.result]

theorem nextPacket_of_malformed {fault : PacketFault} {n : Nat}
    (h : readPacket maxCores bs = .malformed fault n) :
    nextPacket maxCores counts bs = nextPacket maxCores (counts.count fault) (bs.drop n) := by
  conv => lhs; rw [nextPacket]
  split
  · simp_all [PacketRead.result]
  · simp_all [PacketRead.result]
  · next e he =>
    simp only [h, PacketRead.result, Except.error.injEq] at he
    subst he
    rfl

/-- The search either finds nothing more, with the rest incomplete, or it finds a packet. -/
theorem nextPacket_cases (maxCores : Nat) (counts : FaultCounts) (bs : List UInt8) :
    (∃ counts' rest, nextPacket maxCores counts bs = (.ok none, counts', rest) ∧
      readPacket maxCores rest = .incomplete) ∨
    ∃ p counts' rest, nextPacket maxCores counts bs = (.ok (some p), counts', rest) := by
  induction hlen : bs.length using Nat.strongRecOn generalizing counts bs with
  | ind len ih =>
    subst hlen
    cases h : readPacket maxCores bs with
    | incomplete => exact .inl ⟨counts, bs, nextPacket_of_incomplete h, h⟩
    | packet p n => exact .inr ⟨p, counts, bs.drop n, nextPacket_of_packet h⟩
    | malformed fault n =>
      have := readPacket_malformed_length h
      rw [nextPacket_of_malformed h]
      exact ih _ (by simp only [List.length_drop]; omega) _ _ rfl

/-- With more bytes behind, the search finds the packet that it found without them, or else goes
on where it stopped. -/
theorem nextPacket_append (maxCores : Nat) (counts : FaultCounts) (bs more : List UInt8) :
    nextPacket maxCores counts (bs ++ more) =
      match nextPacket maxCores counts bs with
      | (.ok none, counts', rest) => nextPacket maxCores counts' (rest ++ more)
      | (r, counts', rest) => (r, counts', rest ++ more) := by
  induction hlen : bs.length using Nat.strongRecOn generalizing counts bs with
  | ind len ih =>
    subst hlen
    have hmore : readPacket maxCores bs ≠ .incomplete →
        readPacket maxCores (bs ++ more) = readPacket maxCores bs :=
      fun h => readPacket_append h more
    cases hr : readPacket maxCores bs with
    | incomplete => rw [nextPacket_of_incomplete hr]
    | packet p n =>
      have hn := readPacket_packet_length hr
      rw [nextPacket_of_packet hr, nextPacket_of_packet ((hmore (by simp [hr])).trans hr),
        List.drop_append_of_le_length hn.2]
    | malformed fault n =>
      have hn := readPacket_malformed_length hr
      rw [nextPacket_of_malformed hr, nextPacket_of_malformed ((hmore (by simp [hr])).trans hr),
        List.drop_append_of_le_length hn.2]
      exact ih _ (by simp only [List.length_drop]; omega) _ _ rfl

end

/-! ## Frames -/

/-- A decoder that holds no whole frame, and nothing that could be skipped. -/
def Idle (d : FrameDecoder) : Prop := d.next = (.ok none, d)

theorem idle_ofSession (maxCores : Nat) : (ofSession maxCores).Idle := rfl

theorem idle_ofPackets (maxCores : Nat) : (ofPackets maxCores).Idle := by
  have h : readPacket maxCores [] = .incomplete := rfl
  simp only [Idle, next, ofPackets, nextPacket_of_incomplete h, Except.map, Option.map_none,
    Bool.false_eq_true, if_false]

@[simp]
theorem feed_nil (d : FrameDecoder) : d.feed [] = d := by simp [feed]

theorem feed_append (d : FrameDecoder) (bs more : List UInt8) :
    d.feed (bs ++ more) = (d.feed bs).feed more := by simp [feed]

/-- The next step either finds a frame or leaves the decoder idle. -/
theorem next_cases (d : FrameDecoder) :
    (∃ d', d.next = (.ok none, d') ∧ d'.Idle) ∨ ∃ f d', d.next = (.ok (some f), d') := by
  cases hd : d.awaitsDescription with
  | true =>
    cases ht : takeText d.input with
    | none =>
      have hn : d.next = (.ok none, d) := by simp only [next, hd, ht, if_true]
      exact .inl ⟨d, hn, hn⟩
    | some r =>
      refine .inr ⟨.description ⟨Utf8.decodeLenient r.1⟩,
        { d with awaitsDescription := false, input := r.2 }, ?_⟩
      simp only [next, hd, ht, if_true]
  | false =>
    simp only [next, hd, Bool.false_eq_true, if_false, Idle]
    obtain ⟨counts, rest, h, hr⟩ | ⟨p, counts, rest, h⟩ :=
      nextPacket_cases d.maxCores d.dropped d.input
    · refine .inl ⟨{ d with dropped := counts, input := rest }, ?_, ?_⟩
      · simp [h, hd, Except.map]
      · simp [hd, nextPacket_of_incomplete hr, Except.map]
    · exact .inr ⟨.packet p, { d with dropped := counts, input := rest }, by
        simp [h, hd, Except.map]⟩

/-- No step before the end of the stream goes wrong. -/
theorem next_ok (d : FrameDecoder) : ∃ f, d.next.1 = .ok f := by
  obtain ⟨d', h, -⟩ | ⟨f, d', h⟩ := next_cases d <;> rw [h] <;> exact ⟨_, rfl⟩

/-- With more bytes behind, the next frame is the one that was there without them, or else it comes
from where the decoder stopped. -/
theorem next_feed (d : FrameDecoder) (more : List UInt8) :
    (d.feed more).next =
      match d.next with
      | (.ok none, d') => (d'.feed more).next
      | (r, d') => (r, d'.feed more) := by
  cases hd : d.awaitsDescription with
  | true =>
    cases ht : takeText d.input with
    | none => simp only [next, feed, hd, ht, if_true]
    | some r => simp only [next, feed, hd, ht, takeText_more ht, if_true]
  | false =>
    have happ := nextPacket_append d.maxCores d.dropped d.input more
    simp only [next, feed, hd, Bool.false_eq_true, if_false]
    obtain ⟨counts, rest, h, -⟩ | ⟨p, counts, rest, h⟩ :=
      nextPacket_cases d.maxCores d.dropped d.input
    · rw [h] at happ
      simp only [happ, h, Except.map, Option.map_none, Bool.false_eq_true, if_false]
    · rw [h] at happ
      simp only [happ, h, Except.map, Option.map_some]

/-! ## All frames -/

theorem drain_of_none {d d' : FrameDecoder} (h : d.next = (.ok none, d')) :
    d.drain = ([], d') := by
  rw [drain]
  split <;> simp_all

theorem drain_of_some {d d' : FrameDecoder} {f : Frame} (h : d.next = (.ok (some f), d')) :
    d.drain = (f :: d'.drain.1, d'.drain.2) := by
  rw [drain]
  split <;> simp_all

theorem idle_drain (d : FrameDecoder) : d.drain.2.Idle := by
  induction hlen : d.input.length using Nat.strongRecOn generalizing d with
  | ind len ih =>
    subst hlen
    obtain ⟨d', h, hd'⟩ | ⟨f, d', h⟩ := next_cases d
    · rw [drain_of_none h]
      exact hd'
    · rw [drain_of_some h]
      exact ih _ (next_length_lt h) _ rfl

/-- Draining the whole is draining the front and then going on with what it left. -/
theorem drain_feed (d : FrameDecoder) (more : List UInt8) :
    (d.feed more).drain =
      (d.drain.1 ++ (d.drain.2.feed more).drain.1, (d.drain.2.feed more).drain.2) := by
  induction hlen : d.input.length using Nat.strongRecOn generalizing d with
  | ind len ih =>
    subst hlen
    have hfeed := next_feed d more
    obtain ⟨d', h, hd'⟩ | ⟨f, d', h⟩ := next_cases d
    · rw [h] at hfeed
      rw [drain_of_none h]
      -- both sides start with the same step
      rw [drain, drain, hfeed]
      rfl
    · rw [h] at hfeed
      rw [drain_of_some h, drain_of_some hfeed, ih _ (next_length_lt h) d' rfl]
      rfl

theorem feedAll_eq_drain {d : FrameDecoder} (hd : d.Idle) (pieces : List (List UInt8)) :
    feedAll pieces d = (d.feed pieces.flatten).drain := by
  induction pieces generalizing d with
  | nil => simp [feedAll, drain_of_none hd]
  | cons piece rest ih =>
    simp only [feedAll, List.flatten_cons]
    rw [ih (idle_drain _), feed_append, drain_feed (d.feed piece)]

/-! ## The end of the stream -/

/-- Only bytes left over are an error at the end. -/
theorem nextAtEnd_error {d : FrameDecoder} {e : DecodeError} (h : d.nextAtEnd.1 = .error e) :
    e = .truncated d.nextAtEnd.2.input.length ∧ d.nextAtEnd.2.input ≠ [] := by
  obtain ⟨d', hn, -⟩ | ⟨f, d', hn⟩ := next_cases d
  · simp only [nextAtEnd, hn] at h ⊢
    cases hi : d'.input.isEmpty with
    | true => simp [hi] at h
    | false =>
      simp only [hi, Bool.false_eq_true, if_false, Except.error.injEq] at h ⊢
      exact ⟨h.symm, by simpa using hi⟩
  · simp [nextAtEnd, hn] at h

theorem finish_of_idle {d : FrameDecoder} (hd : d.Idle) :
    d.finish = ([], if d.input = [] then .clean else .truncated d.input.length, d) := by
  by_cases hi : d.input = []
  · have hn : d.nextAtEnd = (.ok none, d) := by
      unfold nextAtEnd
      rw [hd]
      simp [hi]
    rw [finish]
    split <;> simp_all
  · have hn : d.nextAtEnd = (.error (.truncated d.input.length), d) := by
      unfold nextAtEnd
      rw [hd]
      simp [hi]
    rw [finish]
    split <;> simp_all [DecodeError.ending]

/-- A run over pieces is one drain of the whole, and ends cleanly if nothing is left of it. -/
theorem run_eq_drain {d : FrameDecoder} (hd : d.Idle) (pieces : List (List UInt8)) :
    d.run ⟨pieces, none⟩ =
      let (frames, left) := (d.feed pieces.flatten).drain
      (frames, if left.input = [] then .clean else .truncated left.input.length, left) := by
  have hleft := idle_drain (d.feed pieces.flatten)
  simp only [run, feedAll_eq_drain hd, finish_of_idle hleft, List.append_nil]

/-- **Cuts do not matter.**  However a byte string is cut into pieces, decoding gives the frames,
the end, the bytes left over and the counts of skipped packets that it gives of the whole; the
end is clean or cuts a frame, and no step before the end goes wrong. -/
theorem run_pieces {maxCores : Nat} {d : FrameDecoder}
    (hd : d = ofSession maxCores ∨ d = ofPackets maxCores) (pieces : List (List UInt8)) :
    d.run ⟨pieces, none⟩ = d.run ⟨[pieces.flatten], none⟩ ∧
    (∃ frames left, d.run ⟨pieces, none⟩ = (frames, .clean, left) ∧ left.input = [] ∨
      d.run ⟨pieces, none⟩ = (frames, .truncated left.input.length, left) ∧ left.input ≠ []) ∧
    (∀ d' : FrameDecoder, ∃ f, d'.next.1 = .ok f) ∧
    ∀ (d' : FrameDecoder) (e : DecodeError), d'.nextAtEnd.1 = .error e →
      e = .truncated d'.nextAtEnd.2.input.length ∧ d'.nextAtEnd.2.input ≠ [] := by
  have hidle : d.Idle := by
    rcases hd with rfl | rfl
    · exact idle_ofSession maxCores
    · exact idle_ofPackets maxCores
  refine ⟨?_, ?_, next_ok, fun d' e => nextAtEnd_error⟩
  · rw [run_eq_drain hidle, run_eq_drain hidle]
    simp
  · rw [run_eq_drain hidle]
    refine ⟨(d.feed pieces.flatten).drain.1, (d.feed pieces.flatten).drain.2, ?_⟩
    by_cases hleft : (d.feed pieces.flatten).drain.2.input = []
    · exact .inl ⟨by simp only [hleft, if_true], hleft⟩
    · exact .inr ⟨by simp only [hleft, if_false], hleft⟩

/-- A description of one letter and a packet header, cut inside both. -/
theorem run_pieces_cut_header :
    (ofSession 4 = ofSession 4 ∨ ofSession 4 = ofPackets 4) ∧
    (ofSession 4).run ⟨[[104], [0, 1, 6], [2, 1, 0]], none⟩ =
      (ofSession 4).run ⟨[[104, 0, 1, 6, 2, 1, 0]], none⟩ :=
  ⟨.inl rfl, (run_pieces (.inl rfl) [[104], [0, 1, 6], [2, 1, 0]]).1⟩

end CounterTrace.FrameDecoder
