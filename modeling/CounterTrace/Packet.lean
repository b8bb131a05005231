import CounterTrace.Sample
import CounterTrace.Text.Utf8

/-!
# Packets

A packet carries a run of samples that share core, process and mode, with the identity of the
process at the time.  Its header counts the samples and places them in their batch.
-/

namespace CounterTrace

/-- The fields in front of the samples. -/
structure PacketHeader where
  kernel : Bool := false
  counterCount : UInt8 := 6
  core : UInt8 := 0
  quantity : UInt8 := 0
  /-- Number of the batch. -/
  batch : UInt32 := 0
  /-- Samples missed since the session's baseline. -/
  missed : UInt32 := 0
  /-- Samples of the batch in earlier packets. -/
  firstIndex : UInt32 := 0
  pid : UInt32 := 0
  deriving DecidableEq, Repr, Inhabited

/-- A header, its samples and the identity of their process. -/
structure Packet where
  header : PacketHeader
  samples : List Sample
  cmdline : String
  executable : String
  deriving DecidableEq, Repr, Inhabited

def maxQuantity : Nat := 255

/-- Cores as they travel: one byte, with 255 for every core that does not fit. -/
def wireCore (core : UInt32) : UInt8 := UInt8.ofNat (min core.toNat 255)

end CounterTrace
