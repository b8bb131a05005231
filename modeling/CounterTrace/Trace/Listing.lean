import CounterTrace.Trace.Receive

/-!
# Listings

A listing shows a session as text: the description between two rules, and for each packet its
header, its identity and a line for each sample.
-/

namespace CounterTrace

open Bytes

def Description.listing (d : Description) : String :=
  "-- Description --\n" ++ d.text ++ "\n-----------\n"

def Sample.listing (s : Sample) : String :=
  "\t(" ++ toString s.cycles.toNat ++ "): " ++
    ",".intercalate (s.counters.toList.map fun v => toString v.toNat) ++ "\n"

def PacketHeader.listing (h : PacketHeader) : String :=
  let fields := [("Krnl", if h.kernel then 1 else 0), ("#Ctrs", h.counterCount.toNat),
    ("Core", h.core.toNat), ("Qty", h.quantity.toNat), ("Batch", h.batch.toNat),
    ("Miss", h.missed.toNat), ("1st Idx", h.firstIndex.toNat), ("PID", h.pid.toNat)]
  "== " ++ ", ".intercalate (fields.map fun (k, v) => k ++ " " ++ toString v) ++ " ==\n"

def Packet.listing (p : Packet) : String :=
  p.header.listing ++ "<< cmd:  " ++ p.cmdline ++ "; exe:  " ++ p.executable ++ " >>\n" ++
    String.join (p.samples.map Sample.listing) ++ "\n"

def Frame.listing : Frame → String
  | .description d => d.listing
  | .packet p => p.listing

/-- What came of listing a session. -/
structure ListingResult where
  /-- The number of packets shown, or why the listing is not whole. -/
  outcome : Except Failure Nat
  text : String

/-- Lists a session.  The output may refuse to be written to, with the given message. -/
def listSession (maxCores : Nat) (supply : Supply) (refusal : Option String := none) :
    ListingResult :=
  let (frames, ending, _) := (FrameDecoder.ofSession maxCores).run supply
  match refusal, frames with
  | some why, _ :: _ => ⟨.error (.within "writing dump" (.cause why)), ""⟩
  | _, _ =>
    let text := String.join (frames.map Frame.listing)
    match ending with
    | .failed why => ⟨.error (readFailure why), text⟩
    | _ => ⟨.ok (frames.countP fun f => f.packet?.isSome), text⟩

end CounterTrace
