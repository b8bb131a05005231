import CounterTrace.Decimal.Shortest
import CounterTrace.Pool
import CounterTrace.Session
import CounterTrace.Trace.Receive

/-!
# Metrics

The counts of a capture, a sender and a reader, and their exposition as text: families in the order
of their names, each with its help, its type and its samples.  A family without samples is left
out.
-/

namespace CounterTrace

/-- Observations sorted into buckets by their size. -/
structure Histogram where
  /-- For each bound, the observations up to it. -/
  buckets : List (Float × Nat)
  sum : Float := 0
  count : Nat := 0

namespace Histogram

def new (bounds : List Float) : Histogram := { buckets := bounds.map fun b => (b, 0) }

def observe (h : Histogram) (x : Float) : Histogram :=
  { buckets := h.buckets.map fun (b, n) => (b, if x ≤ b then n + 1 else n)
    sum := h.sum + x
    count := h.count + 1 }

end Histogram

/-- All counts. -/
structure Metrics where
  overflows : Float := 0
  samplesMissed : Float := 0
  poolFree : Float := 0
  poolFull : Float := 0
  buffersDrained : Float := 0
  samplesEncoded : Float := 0
  packetsSent : Float := 0
  bytesSent : Float := 0
  batchDuration : Histogram := .new [0.00001, 0.00005, 0.0001, 0.0005, 0.001, 0.005, 0.05]
  identityLoads : Float := 0
  identitiesTracked : Float := 0
  packetsReceived : Float := 0
  /-- Packets skipped, by reason. -/
  packetsDropped : Table String Float := Table.empty

namespace Metrics

/-! ## Counting -/

def observePool (m : Metrics) (o : Occupancy) : Metrics :=
  { m with poolFree := o.free.toFloat, poolFull := o.full.toFloat }

def countDropped (m : Metrics) (reason : String) (n : Float) : Metrics :=
  { m with packetsDropped := m.packetsDropped.modify reason 0 (· + n) }

/-- Adds what a session has sent.  A session keeps no time, so its batches count as taking none. -/
def addSession {l : Type} (m : Metrics) (s : Session l) : Metrics :=
  { m with
    buffersDrained := m.buffersDrained + s.stats.buffers.toFloat
    samplesEncoded := m.samplesEncoded + s.stats.samples.toFloat
    packetsSent := m.packetsSent + s.stats.packets.toFloat
    bytesSent := m.bytesSent + s.stats.bytes.toFloat
    samplesMissed := s.stats.missed.toNat.toFloat
    identityLoads := m.identityLoads + s.reported.1.toNat.toFloat
    identitiesTracked := s.reported.2.toFloat
    batchDuration := (List.range s.stats.buffers).foldl (fun h _ => h.observe 0) m.batchDuration }

def addReception {w : Type} (m : Metrics) (r : Reception w) : Metrics :=
  let m := { m with packetsReceived := m.packetsReceived + r.packets.toFloat }
  match r.dropped with
  | none => m
  | some counts => counts.byKind.foldl (fun m (kind, n) => m.countDropped kind n.toFloat) m

/-! ## Exposition -/

/-- The name in front of every family. -/
def namespaceName : String := "pmusync"

/-- A family of samples that share a name: each with its name's ending, its labels and its
value. -/
structure Family where
  name : String
  help : String
  kind : String
  samples : List (String × String × String)

def quoted (s : String) : String :=
  let escape (c : Char) : List Char :=
    match c with
    | '\\' => ['\\', '\\']
    | '"' => ['\\', '"']
    | '\n' => ['\\', 'n']
    | c => [c]
  String.ofList ('"' :: s.toList.flatMap escape ++ ['"'])

def label (name value : String) : String := "\x7b" ++ name ++ "=" ++ quoted value ++ "\x7d"

def scalar (kind name help : String) (x : Float) : Family :=
  ⟨name, help, kind, [("", "", Decimal.ofFloat x)]⟩

def histogramSamples (h : Histogram) : List (String × String × String) :=
  h.buckets.map (fun (b, n) => ("_bucket", label "le" (Decimal.ofFloat b), toString n)) ++
    [("_bucket", label "le" "+Inf", toString h.count), ("_sum", "", Decimal.ofFloat h.sum),
      ("_count", "", toString h.count)]

/-- All families, in the order of their names. -/
def families (m : Metrics) : List Family :=
  [⟨"batch_duration_seconds", "Time to encode and send one drained buffer.", "histogram",
      histogramSamples m.batchDuration⟩,
    scalar "counter" "buffers_drained_total" "Total buffers drained and encoded." m.buffersDrained,
    scalar "counter" "bytes_sent_total" "Total bytes written to the endpoint." m.bytesSent,
    scalar "gauge" "identities_tracked" "Pids held in the identity cache." m.identitiesTracked,
    scalar "counter" "identity_loads_total" "Total process metadata loads." m.identityLoads,
    scalar "counter" "overflows_total" "Total counter overflows observed by the capture trigger."
      m.overflows,
    ⟨"packets_dropped_total", "Total packets skipped while decoding, by reason.", "counter",
      (m.packetsDropped.entries.mergeSort fun a b => decide (a.1 ≤ b.1)).map
        fun (reason, n) => ("", label "reason" reason, Decimal.ofFloat n)⟩,
    scalar "counter" "packets_received_total" "Total packets decoded from a session stream."
      m.packetsReceived,
    scalar "counter" "packets_sent_total" "Total packets written to the endpoint." m.packetsSent,
    scalar "gauge" "pool_free_buffers" "Buffers currently in the free set." m.poolFree,
    scalar "gauge" "pool_full_buffers" "Buffers waiting to be drained." m.poolFull,
    scalar "counter" "samples_encoded_total" "Total samples encoded into packets."
      m.samplesEncoded,
    scalar "gauge" "samples_missed"
      "Samples dropped for lack of a free buffer since the session baseline." m.samplesMissed]

def Family.lines (f : Family) : List String :=
  let name := namespaceName ++ "_" ++ f.name
  if f.samples.isEmpty then []
  else
    ("# HELP " ++ name ++ " " ++ f.help) :: ("# TYPE " ++ name ++ " " ++ f.kind) ::
      f.samples.map fun (ending, labels, value) => name ++ ending ++ labels ++ " " ++ value

def lines (m : Metrics) : List String := m.families.flatMap Family.lines

def render (m : Metrics) : String := String.join (m.lines.map (· ++ "\n"))

end Metrics

end CounterTrace
