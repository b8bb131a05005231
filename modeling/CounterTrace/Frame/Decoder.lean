import CounterTrace.Frame
import CounterTrace.Bytes.Supply

/-!
# Decoding frames

A decoder holds the bytes that make no frame yet.  Bytes are fed to it piece by piece and whole
frames taken from it.  A packet that is whole but unusable is skipped and counted under its fault.

    d.next          the next whole frame, if there is one
    d.nextAtEnd     the same when no more bytes will come
    d.drain         all whole frames
    d.finish        the last frames, and whether the stream ended between two frames
-/

namespace CounterTrace

open Bytes

/-- Skipped packets by fault. -/
structure FaultCounts where
  tooManyCounters : Nat := 0
  coreOutOfRange : Nat := 0
  noSamples : Nat := 0
  deriving DecidableEq, Repr

namespace FaultCounts

def count (c : FaultCounts) : PacketFault → FaultCounts
  | .tooManyCounters _ => { c with tooManyCounters := c.tooManyCounters + 1 }
  | .coreOutOfRange .. => { c with coreOutOfRange := c.coreOutOfRange + 1 }
  | .noSamples => { c with noSamples := c.noSamples + 1 }

def total (c : FaultCounts) : Nat := c.tooManyCounters + c.coreOutOfRange + c.noSamples

/-- The faults that occurred, by name and in the order of the names. -/
def byKind (c : FaultCounts) : List (String × Nat) :=
  [("core_out_of_range", c.coreOutOfRange), ("empty_packet", c.noSamples),
    ("too_many_counters", c.tooManyCounters)].filter fun (_, n) => n != 0

end FaultCounts

/-- The state of a stream that is being decoded. -/
structure FrameDecoder where
  /-- Whether the description is still to come. -/
  awaitsDescription : Bool
  maxCores : Nat
  dropped : FaultCounts := {}
  /-- Bytes that make no frame yet. -/
  input : List UInt8 := []
  deriving DecidableEq, Repr

/-- How a stream ended. -/
inductive StreamEnd where
  | clean
  | truncated (remaining : Nat)
  | failed (message : String)
  deriving DecidableEq, Repr

def truncatedMessage (remaining : Nat) : String :=
  s!"stream ended inside a packet ({remaining} bytes left over)"

def unreadableMessage (why : String) : String := s!"reading stream: {why}"

/-- Why no frame can be taken. -/
inductive DecodeError where
  /-- A whole packet that cannot be used, with its length. -/
  | malformed (fault : PacketFault) (length : Nat)
  /-- Bytes left over at the end of the stream. -/
  | truncated (remaining : Nat)
  | unreadable (why : String)
  deriving DecidableEq, Repr

namespace DecodeError

/-- What to count and how many bytes to skip, for an error that lies within one whole packet. -/
def skip? : DecodeError → Option (PacketFault × Nat)
  | malformed fault length => some (fault, length)
  | _ => none

def message : DecodeError → String
  | malformed fault _ => fault.message
  | truncated remaining => truncatedMessage remaining
  | unreadable why => unreadableMessage why

def ending : DecodeError → StreamEnd
  | truncated remaining => .truncated remaining
  | e => .failed e.message

end DecodeError

/-- What was read as a result: a packet with its length, nothing yet, or an error. -/
def PacketRead.result : PacketRead → Except DecodeError (Option (Packet × Nat))
  | incomplete => .ok none
  | packet p n => .ok (some (p, n))
  | malformed fault n => .error (.malformed fault n)

theorem PacketRead.eq_malformed_of_skip? {r : PacketRead} {e : DecodeError} {fault : PacketFault}
    {n : Nat} (hr : r.result = .error e) (he : e.skip? = some (fault, n)) :
    r = .malformed fault n := by
  cases r with
  | incomplete => simp [result] at hr
  | packet => simp [result] at hr
  | malformed =>
    simp only [result, Except.error.injEq] at hr
    subst hr
    simpa [DecodeError.skip?] using he

theorem PacketRead.eq_packet_of_result {r : PacketRead} {p : Packet} {n : Nat}
    (hr : r.result = .ok (some (p, n))) : r = .packet p n := by
  cases r <;> simp_all [result]

namespace FrameDecoder

/-- A decoder for a whole session. -/
def ofSession (maxCores : Nat) : FrameDecoder where
  awaitsDescription := true
  maxCores := maxCores

/-- A decoder for packets only. -/
def ofPackets (maxCores : Nat) : FrameDecoder where
  awaitsDescription := false
  maxCores := maxCores

def feed (d : FrameDecoder) (bytes : List UInt8) : FrameDecoder :=
  { d with input := d.input ++ bytes }

/-- The first usable packet of a byte list, with the counts and the bytes after the packets that
were skipped in front of it and after itself.  Errors that cannot be skipped end the search. -/
def nextPacket (maxCores : Nat) (counts : FaultCounts) (bs : List UInt8) :
    Except DecodeError (Option Packet) × FaultCounts × List UInt8 :=
  match _h : (readPacket maxCores bs).result with
  | .ok none => (.ok none, counts, bs)
  | .ok (some (p, n)) => (.ok (some p), counts, bs.drop n)
  | .error e =>
    match _he : e.skip? with
    | none => (.error e, counts, bs)
    | some (fault, n) => nextPacket maxCores (counts.count fault) (bs.drop n)
termination_by bs.length
decreasing_by
  have := readPacket_malformed_length (PacketRead.eq_malformed_of_skip? _h _he)
  simp only [List.length_drop]
  omega

/-- Takes the next whole frame. -/
def next (d : FrameDecoder) : Except DecodeError (Option Frame) × FrameDecoder :=
  if d.awaitsDescription then
    match takeText d.input with
    | none => (.ok none, d)
    | some (text, rest) =>
      (.ok (some (.description ⟨Utf8.decodeLenient text⟩)),
        { d with awaitsDescription := false, input := rest })
  else
    let (r, dropped, rest) := nextPacket d.maxCores d.dropped d.input
    (r.map (·.map .packet), { d with dropped := dropped, input := rest })

/-- Takes the next whole frame when no more bytes will come.  Bytes that make no frame are then an
error. -/
def nextAtEnd (d : FrameDecoder) : Except DecodeError (Option Frame) × FrameDecoder :=
  match d.next with
  | (.ok none, d) =>
    if d.input.isEmpty then (.ok none, d) else (.error (.truncated d.input.length), d)
  | r => r

theorem nextPacket_length_lt {maxCores : Nat} {counts : FaultCounts} {bs : List UInt8}
    {p : Packet} (h : (nextPacket maxCores counts bs).1 = .ok (some p)) :
    (nextPacket maxCores counts bs).2.2.length < bs.length := by
  fun_induction nextPacket maxCores counts bs with
  | case1 => simp at h
  | case2 counts bs q n hr =>
    have := readPacket_packet_length (PacketRead.eq_packet_of_result hr)
    simp only [List.length_drop]
    omega
  | case3 => simp at h
  | case4 counts bs e _ fault n _ ih =>
    have := ih h
    simp only [List.length_drop] at this
    omega

theorem next_length_lt {d d' : FrameDecoder} {f : Frame} (h : d.next = (.ok (some f), d')) :
    d'.input.length < d.input.length := by
  unfold next at h
  split at h
  · split at h
    · simp at h
    · next ht =>
      simp only [Prod.mk.injEq] at h
      have := congrArg List.length (takeText_eq_some ht)
      simp only [List.length_append, List.length_cons] at this
      rw [← h.2]
      simp only
      omega
  · simp only [Prod.mk.injEq] at h
    obtain ⟨hr, rfl⟩ := h
    cases hp : (nextPacket d.maxCores d.dropped d.input).1 with
    | error e => simp [hp, Except.map] at hr
    | ok q =>
      cases q with
      | none => simp [hp, Except.map] at hr
      | some p => exact nextPacket_length_lt hp

theorem nextAtEnd_length_lt {d d' : FrameDecoder} {f : Frame}
    (h : d.nextAtEnd = (.ok (some f), d')) : d'.input.length < d.input.length := by
  unfold nextAtEnd at h
  split at h
  · split at h <;> simp at h
  · exact next_length_lt h

/-- Takes whole frames until there is none. -/
def drain (d : FrameDecoder) : List Frame × FrameDecoder :=
  match _h : d.next with
  | (.ok (some f), d') => (f :: (drain d').1, (drain d').2)
  | (_, d') => ([], d')
termination_by d.input.length
decreasing_by all_goals exact next_length_lt _h

/-- Takes what is left at the end of the stream. -/
def finish (d : FrameDecoder) : List Frame × StreamEnd × FrameDecoder :=
  match _h : d.nextAtEnd with
  | (.ok (some f), d') => (f :: (finish d').1, (finish d').2)
  | (.ok none, d') => ([], .clean, d')
  | (.error e, d') => ([], e.ending, d')
termination_by d.input.length
decreasing_by all_goals exact nextAtEnd_length_lt _h

/-- Feeds pieces one after the other and takes all whole frames after each. -/
def feedAll : List (List UInt8) → FrameDecoder → List Frame × FrameDecoder
  | [], d => ([], d)
  | piece :: rest, d =>
    let (frames, d) := (d.feed piece).drain
    let (more, d) := feedAll rest d
    (frames ++ more, d)

/-- Decodes a supply to its end or its failure. -/
def run (d : FrameDecoder) (s : Supply) : List Frame × StreamEnd × FrameDecoder :=
  let (frames, d) := feedAll s.pieces d
  match s.failure with
  | some m => (frames, .failed m, d)
  | none =>
    let (more, ending, d) := d.finish
    (frames ++ more, ending, d)

end FrameDecoder

end CounterTrace
