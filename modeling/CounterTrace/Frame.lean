import CounterTrace.Description
import CounterTrace.Packet.Wire

/-!
# Frames

A session stream is a description, ended by NUL, and packets.  One item of it is a frame.
-/

namespace CounterTrace

/-- One item of a session stream. -/
inductive Frame where
  | description (d : Description)
  | packet (p : Packet)
  deriving DecidableEq, Repr

namespace Frame

def wire : Frame → List UInt8
  | description d => wireText d.text
  | packet p => p.wire

def packet? : Frame → Option Packet
  | description _ => none
  | packet p => some p

end Frame

end CounterTrace
