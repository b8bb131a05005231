import CounterTrace.Proofs.Trace.Receiving
import CounterTrace.Trace.Listing

/-!
# Listing a session and receiving it

Two loops read sessions: one shows every frame as text, the other hands it to a splitter.  Whatever
a supply holds, in whatever pieces and with whatever failure at its end, both take the same frames
from it and come to the same end.

    supply.bytes = c.bytes →
      (ofSession n).run supply = (c.frames n, c.ending supply.failure, left)          (run_supply)
      listSession n supply     = c.listed n supply.failure                    (listSession_supply)
      receive supply           = the splitter after c.frames n, finished only without a failure
                                                                                  (receive_supply)
-/

namespace CounterTrace

open Bytes TraceWriter Splitter

/-! ## Decoding -/

/-- How decoding ends for a supply that holds a content, given its failure. -/
def StreamContent.ending (c : StreamContent) : Option String → StreamEnd
  | some why => .failed why
  | none => if c.tail = [] then .clean else .truncated c.tail.length

/-- A failure takes no frame away: what is whole before it is decoded as it is before an end. -/
theorem FrameDecoder.run_supply (maxCores : Nat) (c : StreamContent) {supply : Supply}
    (hc : supply.bytes = c.bytes) :
    ∃ left : FrameDecoder,
      (ofSession maxCores).run supply =
        (c.frames maxCores, c.ending supply.failure, left) := by
  obtain ⟨pieces, failure⟩ := supply
  obtain ⟨left, hrun, -, -⟩ := run_content maxCores c hc
  cases failure with
  | none => exact ⟨left, hrun⟩
  | some why =>
    have hframes : ((ofSession maxCores).feed pieces.flatten).drain.1 = c.frames maxCores := by
      rw [run_eq_drain (idle_ofSession maxCores)] at hrun
      exact congrArg Prod.fst hrun
    refine ⟨((ofSession maxCores).feed pieces.flatten).drain.2, ?_⟩
    show (_, StreamEnd.failed why, _) = _
    rw [feedAll_eq_drain (idle_ofSession maxCores), hframes]
    rfl

namespace StreamContent

theorem countP_packet?_frames (c : StreamContent) (maxCores : Nat) :
    (c.frames maxCores).countP (fun f => f.packet?.isSome) = (c.packets maxCores).length := by
  rw [← packetsOf_frames, packetsOf, List.length_filterMap_eq_countP]

/-! ## Listing -/

/-- What a listing gives of a content, when the supply fails at its end or does not. -/
def listed (c : StreamContent) (maxCores : Nat) (failure : Option String) : ListingResult where
  outcome :=
    match failure with
    | some why => .error (readFailure why)
    | none => .ok (c.packets maxCores).length
  text := String.join ((c.frames maxCores).map Frame.listing)

theorem listSession_supply (maxCores : Nat) (c : StreamContent) {supply : Supply}
    (hc : supply.bytes = c.bytes) :
    listSession maxCores supply = c.listed maxCores supply.failure := by
  obtain ⟨left, hrun⟩ := FrameDecoder.run_supply maxCores c hc
  unfold listSession
  rw [hrun]
  cases supply.failure with
  | some why => rfl
  | none =>
    -- an end inside a frame counts as an end
    by_cases htail : c.tail = []
    · simp only [ending, htail, if_true, countP_packet?_frames, listed]
    · simp only [ending, htail, if_false, countP_packet?_frames, listed]

/-! ## Receiving -/

variable {w : Type} [TraceWriter w] {j : w}

/-- All frames of a content are handled.  Only after that, and only without a failure, the splitter
closes its traces and writes the index. -/
theorem receive_supply (hj : NeverFails j) (maxCores : Nat) (c : StreamContent) {supply : Supply}
    (hc : supply.bytes = c.bytes) :
    ∃ s : Splitter w,
      processAll (c.frames maxCores) (new j maxCores) =
        (.ok (), s, ((new j maxCores).receive supply).packets) ∧
      s.writer = after j (callsFor maxCores [] (c.frames maxCores)) ∧
      ((new j maxCores).receive supply).packets = (c.packets maxCores).length ∧
      match supply.failure with
      | some why =>
        ((new j maxCores).receive supply).outcome = .error (readFailure why) ∧
          ((new j maxCores).receive supply).writer = s.writer
      | none =>
        ((new j maxCores).receive supply).outcome = .ok () ∧
          ((new j maxCores).receive supply).writer =
            after j (sessionCalls maxCores [] (c.frames maxCores) s.streams s.entries) := by
  obtain ⟨s, hprocess, hs, -⟩ := c.processAll_frames hj maxCores
  have hmax : (new j maxCores).maxCores = maxCores := rfl
  have hfinish := finish_eq hj hs
  obtain ⟨left, hrun⟩ := FrameDecoder.run_supply maxCores c hc
  unfold receive
  rw [hmax, hrun]
  simp only [hprocess]
  refine ⟨s, ?_⟩
  cases supply.failure with
  | some why => exact ⟨rfl, hs.writer, rfl, rfl, rfl⟩
  | none =>
    by_cases htail : c.tail = []
    · simp only [ending, htail, if_true, hfinish, hs.writer, sessionCalls, and_self]
    · simp only [ending, htail, if_false, hfinish, hs.writer, sessionCalls, and_self]

/-- A session is listed and received alike. -/
structure ListedAsReceived (c : StreamContent) (j : w) (maxCores : Nat) (supply : Supply) :
    Prop where
  /-- The frames that are shown, in their order and each once. -/
  shown : (listSession maxCores supply).text =
    String.join ((c.frames maxCores).map Frame.listing)
  /-- They are the frames that the splitter handles. -/
  handled : ∃ s, processAll (c.frames maxCores) (new j maxCores) =
    (.ok (), s, ((new j maxCores).receive supply).packets)
  packets : ((new j maxCores).receive supply).packets = (c.packets maxCores).length
  /-- Without a failure both succeed, also where the end cuts a frame. -/
  ended : supply.failure = none →
    (listSession maxCores supply).outcome = .ok ((new j maxCores).receive supply).packets ∧
      ((new j maxCores).receive supply).outcome = .ok () ∧
      ∃ keys entries, ((new j maxCores).receive supply).writer =
        after j (sessionCalls maxCores [] (c.frames maxCores) keys entries)
  /-- A failure is the failure of both, and comes after all frames and before the index. -/
  failed : ∀ why, supply.failure = some why →
    (listSession maxCores supply).outcome = .error (readFailure why) ∧
      ((new j maxCores).receive supply).outcome = .error (readFailure why) ∧
      ((new j maxCores).receive supply).writer =
        after j (callsFor maxCores [] (c.frames maxCores)) ∧
      ∀ rows, .index rows ∉ callsFor maxCores [] (c.frames maxCores)

end StreamContent

/-- **A listing shows what is received.**  Whatever bytes a supply hands out, in whatever pieces and
up to whatever failure, they are whole items and a tail; the listing shows exactly the frames that
the splitter handles, counts the same packets, and succeeds or fails as receiving does. -/
theorem listing_agrees_with_reception {w : Type} [TraceWriter w] {j : w} (hj : NeverFails j)
    (maxCores : Nat) (supply : Supply) :
    (∃ c : StreamContent, c.bytes = supply.bytes) ∧
    ∀ c : StreamContent, c.bytes = supply.bytes → c.ListedAsReceived j maxCores supply := by
  refine ⟨StreamContent.exists_of _, fun c hc => ?_⟩
  have hlisting := c.listSession_supply maxCores hc.symm
  obtain ⟨s, hprocess, hwriter, hpackets, hend⟩ := c.receive_supply hj maxCores hc.symm
  refine ⟨?_, ⟨s, hprocess⟩, hpackets, ?_, ?_⟩
  · rw [hlisting]
    rfl
  · intro hnone
    rw [hnone] at hlisting hend
    refine ⟨?_, hend.1, s.streams, s.entries, hend.2⟩
    rw [hlisting, hpackets]
    rfl
  · intro why hwhy
    rw [hwhy] at hlisting hend
    refine ⟨?_, hend.1, hend.2.trans hwriter, index_not_mem_callsFor maxCores [] _⟩
    rw [hlisting]
    rfl

/-- A stream that cannot be read on in the middle of its second packet: the first packet is shown
and received, and there is no index. -/
theorem listing_agrees_with_reception_unreadable :
    NeverFails ({} : TraceJournal) ∧
    brokenOff.ListedAsReceived ({} : TraceJournal) 4 ⟨[brokenOff.bytes], some "reset"⟩ ∧
    (brokenOff.packets 4).length = 1 ∧
    (listSession 4 ⟨[brokenOff.bytes], some "reset"⟩).outcome = .error (readFailure "reset") := by
  have hj : NeverFails ({} : TraceJournal) := TraceJournal.neverFails rfl
  have hlisted := (listing_agrees_with_reception hj 4 ⟨[brokenOff.bytes], some "reset"⟩).2
    brokenOff (List.flatten_singleton ..).symm
  exact ⟨hj, hlisted, by decide, (hlisted.failed "reset" rfl).1⟩

end CounterTrace
