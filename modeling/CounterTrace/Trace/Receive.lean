import CounterTrace.Frame.Decoder
import CounterTrace.Trace.Splitter

/-!
# Receiving a session

A session that comes in as bytes is decoded and split.  Bytes left over at the end count as the end
of the session.  A supply that fails ends the session with that failure, after every frame that was
whole before it, and without an index.
-/

namespace CounterTrace

open Bytes

/-- What came of a session. -/
structure Reception (w : Type) where
  outcome : Except Failure Unit
  writer : w
  /-- Packets handed to the splitter. -/
  packets : Nat
  /-- Packets skipped, if the session came to its end. -/
  dropped : Option FaultCounts

def readFailure (why : String) : Failure :=
  .within "decoding session stream" (.within (unreadableMessage why) (.cause why))

namespace Splitter

variable {w : Type} [TraceWriter w]

/-- Handles frames up to the first failure.  Gives the number of packets among those handled. -/
def processAll : List Frame → Splitter w → Except Failure Unit × Splitter w × Nat
  | [], s => (.ok (), s, 0)
  | f :: fs, s =>
    let one := if f.packet?.isSome then 1 else 0
    match s.process f with
    | (.error e, s) => (.error e, s, one)
    | (.ok (), s) =>
      let (r, s, n) := processAll fs s
      (r, s, one + n)

/-- Decodes and splits a session. -/
def receive (s : Splitter w) (supply : Supply) : Reception w :=
  let (frames, ending, decoder) := (FrameDecoder.ofSession s.maxCores).run supply
  match processAll frames s with
  | (.error e, s, n) => ⟨.error e, s.writer, n, none⟩
  | (.ok (), s, n) =>
    match ending with
    | .failed why => ⟨.error (readFailure why), s.writer, n, none⟩
    | _ =>
      let (r, writer) := s.finish
      ⟨r, writer, n, some decoder.dropped⟩

end Splitter

end CounterTrace
