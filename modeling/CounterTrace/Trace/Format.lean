import CounterTrace.Bytes.Word
import CounterTrace.Trace.Splitter

/-!
# Trace files

A trace file is a header with the identity of the process, then samples and boundaries in the
order in which they came.

* As text: a line with command line and executable, then a row of seven numbers for each sample
  and a row of seven empty fields for each boundary.
* As binary: a mark, the two texts, each ended by NUL, then 28 bytes for each sample (the low 32
  bits of the cycles and the counters, lowest byte first) and 28 zeros for each boundary.

The index is a table of comma-separated fields.  A field is quoted only if it needs it.
-/

namespace CounterTrace

open Bytes

/-- The form of trace files. -/
inductive TraceFormat where
  | text
  | binary
  deriving DecidableEq, Repr

/-- One entry of a trace. -/
inductive TraceEvent where
  | sample (s : Sample)
  | boundary
  deriving DecidableEq, Repr

/-! ## Traces -/

/-- The bytes in front of every binary trace. -/
def binaryMark : List UInt8 := Utf8.encode "Trace binary file\n\x00"

def sampleRow (s : Sample) : String :=
  ",".intercalate (toString s.cycles.toNat :: s.counters.toList.map fun v => toString v.toNat) ++
    "\n"

def boundaryRow : String := ",,,,,,\n"

def sampleRecord (s : Sample) : List UInt8 :=
  le32 (UInt32.ofNat s.cycles.toNat) ++ s.counters.toList.flatMap le32

def boundaryRecord : List UInt8 := List.replicate ((1 + maxCounters) * 4) 0

namespace TraceFormat

def name : TraceFormat → String
  | text => "text"
  | binary => "binary"

def suffix : TraceFormat → String
  | text => ".csv"
  | binary => ".trace"

def header (f : TraceFormat) (cmdline executable : String) : List UInt8 :=
  match f with
  | text => Utf8.encode (cmdline ++ ", " ++ executable ++ "\n")
  | binary => binaryMark ++ Utf8.encode cmdline ++ [0] ++ Utf8.encode executable ++ [0]

def event : TraceFormat → TraceEvent → List UInt8
  | text, .sample s => Utf8.encode (sampleRow s)
  | text, .boundary => Utf8.encode boundaryRow
  | binary, .sample s => sampleRecord s
  | binary, .boundary => boundaryRecord

def fileName (f : TraceFormat) (key : StreamKey) : String :=
  toString key.pid.toNat ++ "-core" ++ toString key.core.toNat ++ f.suffix

end TraceFormat

/-! ## The index -/

def needsQuotes (field : List Char) : Bool :=
  field.any fun c => c == ',' || c == '"' || c == '\n' || c == '\r'

def csvField (s : String) : String :=
  let cs := s.toList
  if needsQuotes cs then
    String.ofList ('"' :: cs.flatMap (fun c => if c = '"' then ['"', '"'] else [c]) ++ ['"'])
  else s

def indexRow (e : IndexEntry) : String :=
  ",".intercalate [toString e.key.pid.toNat, toString e.key.core.toNat, csvField e.cmdline,
    csvField e.executable, csvField e.location] ++ "\n"

def indexHeader : String := "pid,core,cmdline,exe,path\n"

def indexText (entries : List IndexEntry) : String := indexHeader ++ String.join (entries.map indexRow)

end CounterTrace
