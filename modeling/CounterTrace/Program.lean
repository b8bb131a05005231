import CounterTrace.Capture.Setup
import CounterTrace.Command.Address
import CounterTrace.Command.Invocation
import CounterTrace.Command.LogFilter
import CounterTrace.Command.Machine
import CounterTrace.Session
import CounterTrace.Session.Endpoint
import CounterTrace.Settings.File
import CounterTrace.Trace.Directory
import CounterTrace.Trace.Listing

/-!
# Running commands

The program reads its arguments, loads its settings, overrides them, and carries out its command.
It ends with a status:

    0      the command was carried out
    1      it failed, which is reported
    2      the arguments break a rule
-/

namespace CounterTrace

open Bytes

/-- How the program ends. -/
structure Exit where
  code : Nat
  report : Option String := none
  deriving DecidableEq, Repr

namespace Program

variable {m : Type → Type} [Monad m] [Machine m]

/-- Steps on a machine that may fail. -/
abbrev Steps (m : Type → Type) := ExceptT Failure m

/-- Does a step that cannot fail. -/
def ask {α : Type} (step : m α) : Steps m α := ExceptT.lift step

/-- Does a step, within a context if it is refused. -/
def within {α : Type} (context : String) (step : m (Except String α)) : Steps m α :=
  ExceptT.mk (refusedWithin context <$> step)

/-- Goes on with a result unless it is a failure. -/
def settle {α : Type} (r : Except Failure α) : Steps m α := ExceptT.mk (pure r)

/-- Asks a machine for something at a network address. -/
def atAddress {α : Type} (address : String) (step : String → m (Except String α)) :
    m (Except String α) :=
  match Address.fault? address with
  | some fault => return .error fault.message
  | none => step address

/-! ## Sending -/

/-- Makes the far ends of a transport ready. -/
def connect (endpoint : Endpoint) (mirror : Option String) : Steps m Transport := do
  match endpoint with
  | .collector address => within s!"connecting to {address}" (atAddress address Machine.connect)
  | .file path => within s!"creating {path}" (Machine.createFile path)
  match mirror with
  | none => return {}
  | some path =>
    within s!"creating debug mirror {path}" (Machine.createFile path)
    return { mirror := some {} }

/-- Hands on what the sinks of a transport have taken. -/
def handOn (endpoint : Endpoint) (mirror : Option String) (t : Transport) : m Unit := do
  match endpoint with
  | .collector address => Machine.deliver address t.out.sink.delivered
  | .file path => Machine.fillFile path t.out.sink.delivered
  match mirror, t.mirror with
  | some path, some sink => Machine.fillFile path sink.sink.delivered
  | _, _ => return ()

/-- Sends a session.  Its buffers are asked for when its far ends are ready. -/
def sendSession (s : SenderSettings) (naming : IdentitySettings) (description : Description)
    (feed : Unit → BufferSource × MissedReadings) : Steps m Unit := do
  let endpoint ← settle (Endpoint.single s.endpoint s.output)
  let mirror := if s.debugMirror.isEmpty then none else some s.debugMirror
  let transport ← connect endpoint mirror
  let table ← ask (Machine.processes naming.procRoot)
  let session := Session.new (.new table naming.templateName naming.checks)
    { warmupBuffers := s.warmupBuffers, kbytesLimit := s.kbytesLimit }
  let (source, missed) := feed ()
  let (outcome, _, transport) := session.run source missed description .endOfStream transport
  ask (handOn endpoint mirror transport)
  settle (addContext s!"sending to {endpoint.display}" (outcome.map fun _ => ()))

/-- Sends what the capture device holds. -/
def send (s : Settings) : Steps m Unit := do
  let device := s.sender.device
  let supply ← within s!"opening capture device {device}" (Machine.openFile device)
  let read ← ask (Machine.readFiles
    (s.sender.missedPath :: Description.knobPaths s.sender.controlDir))
  let description ← settle (Description.ofKnobFiles read s.sender.controlDir)
  sendSession s.sender s.identity description fun _ =>
    ((RecordReader.mk supply).readAll, fun _ => readKnobFile read s.sender.missedPath)

/-! ## Simulating -/

/-- Readings of the missed counter that belong to taken buffers: the baseline belongs to the last
buffer of the warm-up. -/
def readingsOf (taken : List TakenBuffer) (warmup : Nat) : MissedReadings := fun i =>
  .ok ((taken[warmup + i - 1]?).elim 0 TakenBuffer.missed)

/-- Rounds that fit into some seconds; without an end, all that the clock can count. -/
def roundsIn (tick : UInt64) (seconds : Option Nat) : Nat :=
  match seconds with
  | some n => n * Duration.nanosPerSecond / tick.toNat
  | none => UInt64.size / tick.toNat

/-- Rounds after which a byte budget is surely used up: every core fills a buffer in as many rounds
as a buffer has slots, and the packets of a buffer hold every sample in it. -/
def roundsFor (s : SenderSettings) : Option Nat :=
  if s.kbytesLimit = 0 then none
  else
    let buffers := (s.kbytesLimit + 1) * 1000 / (bufferCapacity * groupSize maxCounters) + 1
    some ((s.warmupBuffers + buffers) * bufferCapacity)

/-- Simulates a capture and sends it. -/
def simulate (s : Settings) (duration : Option Nat) (knobs : List String) : Steps m Unit := do
  let own ← ask Machine.ownPid
  let simulation ← settle ((s.capture.prepare own knobs).mapError AssignmentError.failure)
  let tick := s.capture.tickNanos
  let rounds := roundsIn tick duration
  sendSession s.sender s.identity simulation.description fun _ =>
    let taken := simulation.record tick (min rounds ((roundsFor s.sender).getD rounds))
    (taken.map fun t => .ok t.buffer, readingsOf taken s.sender.warmupBuffers)

/-! ## Reading -/

/-- The source of a session that is read. -/
def source (input listen : Option String) : Steps m Supply := do
  match input, listen with
  | _, some address => within s!"listening on {address}" (atAddress address Machine.receive)
  | some path, none => within s!"opening {path}" (Machine.openFile path)
  | none, none => settle (.error (.cause "no input: pass a session file or --listen"))

def split (s : ReaderSettings) (input listen : Option String) : Steps m Unit := do
  let dir := s.outputDir
  if dir.isEmpty then
    settle (.error (.cause "no output directory: pass --dir or set reader.output_dir"))
  else
    let creation ← ask (Machine.createDirectory dir)
    let place ← ask (Machine.locate dir)
    let empty ← settle (TraceDirectory.create dir place s.format creation)
    let supply ← source input listen
    let reception := (Splitter.new empty s.maxCores).receive supply
    for (name, bytes) in reception.writer.files.entries do
      ask (Machine.fillFile (Path.join dir name) bytes)
    settle reception.outcome

def dump (s : ReaderSettings) (input : String) : Steps m Unit := do
  let supply ← source (some input) none
  let listing := listSession s.maxCores supply
  ask (Machine.print listing.text)
  settle (listing.outcome.map fun _ => ())

/-! ## The program -/

def programName : String := "pmusync"

def help : String :=
  "Usage: " ++ programName ++ " [-c FILE] [--log-level FILTER] COMMAND [ARGUMENTS]\n\n" ++
  "Commands:\n" ++
  "  send      stream buffer records from the capture device to a collector or file\n" ++
  "  simulate  run the capture pipeline against software counters\n" ++
  "  split     split a session into per-process trace files\n" ++
  "  dump      print a captured session as text\n" ++
  "  version   print version information\n"

def versionLine : String := programName ++ " 0.1.0\n"

def loadSettings (config : Option String) : Steps m Settings := do
  match config with
  | none => return {}
  | some path =>
    let content ← ask (Machine.readFile path)
    settle (addContext s!"loading config from {path}"
      ((Settings.load content).mapError (LoadError.failure path)))

/-- Makes the metrics server ready, if there is to be one. -/
def serveMetrics (s : HealthSettings) : Steps m Unit := do
  if s.addr.isEmpty then return ()
  else
    let address := Address.listening s.addr
    let ready ← ask (atAddress address Machine.listen)
    settle (addContext "starting health server"
      (refusedWithin s!"listening on {address}" ready))

def carryOut (s : Settings) : Command → Steps m Unit
  | .send _ _ _ _ => send s
  | .simulate duration _ _ knobs _ => simulate s duration knobs
  | .split input listen _ _ => split s.reader input listen
  | .dump input => dump s.reader input
  | .version => return ()

def invoke (i : Invocation) : Steps m Unit := do
  if i.command == .version then
    ask (Machine.print versionLine)
  else
    let settings ← loadSettings i.config
    let level := i.effectiveLogLevel settings
    settle (addContext s!"invalid log level: {level}"
      ((LogFilter.check level).mapError LogFilterError.failure))
    let settings := i.command.override settings
    settle (addContext "invalid configuration"
      (settings.check.mapError fun rule => .cause rule.message))
    serveMetrics settings.health
    carryOut settings i.command

def run (args : List String) : m Exit := do
  match Invocation.read args with
  | .error .mistake => return ⟨2, none⟩
  | .error .help =>
    Machine.print help
    return ⟨0, none⟩
  | .ok i =>
    match ← (invoke i).run with
    | .ok () => return ⟨0, none⟩
    | .error failure => return ⟨1, some failure.report⟩

end Program

end CounterTrace
