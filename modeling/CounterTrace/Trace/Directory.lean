import CounterTrace.FileError
import CounterTrace.Trace.Format

/-!
# Trace directories

A trace directory holds the description of a session, its index and one file for each trace.

    setup.txt      the description, if there was one
    index.csv      the index, once the session is finished
    …              the traces, each named by process and core
-/

namespace CounterTrace

/-- The files of a directory, with the place of the directory. -/
structure TraceDirectory where
  /-- Where the directory is, as the index shows it. -/
  path : String
  format : TraceFormat
  files : Table String (List UInt8) := Table.empty

namespace TraceDirectory

def setupName : String := "setup.txt"

def indexName : String := "index.csv"

/-- An empty directory at the place `path`, called `shown`, unless it could not be created. -/
def create (shown path : String) (format : TraceFormat) (creation : Except String Unit) :
    Except Failure TraceDirectory :=
  match creation with
  | .error why => .error (.within s!"creating output directory {shown}" (.cause why))
  | .ok () => .ok { path := path, format := format }

def write (d : TraceDirectory) (name : String) (bytes : List UInt8) : TraceDirectory :=
  { d with files := d.files.insert name bytes }

def append (d : TraceDirectory) (name : String) (bytes : List UInt8) : TraceDirectory :=
  { d with files := d.files.modify name [] (· ++ bytes) }

/-- Adds entries to a trace. -/
def record (d : TraceDirectory) (key : StreamKey) (events : List TraceEvent) : TraceDirectory :=
  d.append (d.format.fileName key) (events.flatMap d.format.event)

instance : TraceWriter TraceDirectory where
  describe d description := (.ok (), d.write setupName (Utf8.encode description.text))
  openTrace d key cmdline executable :=
    let name := d.format.fileName key
    (.ok (d.path ++ "/" ++ name), d.write name (d.format.header cmdline executable))
  writeSamples d key samples := (.ok (), d.record key (samples.map .sample))
  writeBoundary d key := (.ok (), d.record key [.boundary])
  close d _ := (.ok (), d)
  writeIndex d entries := (.ok (), d.write indexName (Utf8.encode (indexText entries)))

end TraceDirectory

end CounterTrace
