import CounterTrace.Command.Arguments
import CounterTrace.Settings

/-!
# Invocations

An invocation is what the arguments of the program ask for: a command, and the settings file and
log level in front of it.  What an invocation says itself overrides its settings.

    Invocation.read args = .ok i      the arguments follow the rules
    i.override s                      settings with what the command says about them
-/

namespace CounterTrace

/-- Where a session is sent to, as far as arguments say so. -/
structure OutputChoice where
  endpoint : Option String := none
  output : Option String := none
  mirror : Option String := none
  kbytes : Option Nat := none
  deriving DecidableEq, Repr

/-- A command with its arguments. -/
inductive Command where
  /-- Sends what a capture device holds. -/
  | send (device controlDir missed : Option String) (out : OutputChoice)
  /-- Sends a simulated capture of some seconds. -/
  | simulate (duration cores : Option Nat) (pids : List UInt32) (knobs : List String)
      (out : OutputChoice)
  /-- Splits a session from a file, or from a sender. -/
  | split (input : Option String) (listen : Option String) (dir : Option String)
      (format : Option TraceFormat)
  /-- Lists a session from a file. -/
  | dump (input : String)
  | version
  deriving DecidableEq, Repr

/-- What the arguments of the program ask for. -/
structure Invocation where
  config : Option String := none
  logLevel : String := "info"
  command : Command
  deriving DecidableEq, Repr

/-! ## Rules -/

namespace Command

/-- Arguments in front of the command. -/
def programRules : ArgumentRules where
  options := [⟨"config", some 'c', .path, false⟩, ⟨"log-level", none, .text, false⟩]

/-- Options for the output of a session. -/
def outputOptions : List OptionRule :=
  [⟨"endpoint", none, .text, false⟩, ⟨"output", some 'o', .path, false⟩,
    ⟨"mirror", none, .path, false⟩, ⟨"kbytes", none, .number UInt64.size, false⟩]

def sendRules : ArgumentRules where
  options :=
    [⟨"device", none, .path, false⟩, ⟨"control-dir", none, .path, false⟩,
      ⟨"missed", none, .path, false⟩] ++ outputOptions

def simulateRules : ArgumentRules where
  options :=
    [⟨"duration", none, .number UInt64.size, false⟩, ⟨"cores", none, .number UInt64.size, false⟩,
      ⟨"pids", none, .numbers UInt32.size, true⟩, ⟨"knob", none, .text, true⟩] ++ outputOptions

def splitRules : ArgumentRules where
  options :=
    [⟨"listen", none, .text, false⟩, ⟨"dir", some 'd', .path, false⟩,
      ⟨"format", none, .choice ["text", "binary"], false⟩]
  operands := 1

def dumpRules : ArgumentRules where
  options := []
  operands := 1

/-! ## Reading -/

/-- The choice of an output: not two at once. -/
def outputChoice (a : Arguments) : Except Usage OutputChoice :=
  if a.has "endpoint" && a.has "output" then .error .mistake
  else .ok ⟨a.get? "endpoint", a.get? "output", a.get? "mirror", a.number? "kbytes"⟩

def readSend (args : List String) : Except Usage Command := do
  let a ← Arguments.read sendRules args
  return .send (a.get? "device") (a.get? "control-dir") (a.get? "missed") (← outputChoice a)

def readSimulate (args : List String) : Except Usage Command := do
  let a ← Arguments.read simulateRules args
  return .simulate (a.number? "duration") (a.number? "cores")
    ((a.numbers "pids").map UInt32.ofNat) (a.all "knob") (← outputChoice a)

/-- Reads the arguments of `split`: there is one source. -/
def readSplit (args : List String) : Except Usage Command := do
  let a ← Arguments.read splitRules args
  if a.has "listen" == a.operands.isEmpty then
    return .split a.operands.head? (a.get? "listen") (a.get? "dir")
      ((a.get? "format").map fun f => if f == "text" then .text else .binary)
  else .error .mistake

def readDump (args : List String) : Except Usage Command := do
  let a ← Arguments.read dumpRules args
  match a.operands with
  | [input] => return .dump input
  | _ => .error .mistake

def readVersion (args : List String) : Except Usage Command :=
  (Arguments.read { options := [] } args).map fun _ => .version

def read : List String → Except Usage Command
  | "send" :: args => readSend args
  | "simulate" :: args => readSimulate args
  | "split" :: args => readSplit args
  | "dump" :: args => readDump args
  | "version" :: args => readVersion args
  | "help" :: _ => .error .help
  | _ => .error .mistake

end Command

namespace Invocation

def read (args : List String) : Except Usage Invocation := do
  let (a, rest) ← Arguments.readUntil true Command.programRules args {}
  return {
    config := a.get? "config"
    logLevel := (a.get? "log-level").getD "info"
    command := ← Command.read rest }

end Invocation

/-! ## Overriding settings -/

/-- What an output says.  Choosing one of the two outputs takes the other one away. -/
def OutputChoice.override (o : OutputChoice) (s : SenderSettings) : SenderSettings :=
  let s := match o.endpoint with
    | some e => { s with endpoint := e, output := "" }
    | none => s
  let s := match o.output with
    | some path => { s with output := path, endpoint := "" }
    | none => s
  { s with
    debugMirror := o.mirror.getD s.debugMirror
    kbytesLimit := o.kbytes.getD s.kbytesLimit }

def Command.override (s : Settings) : Command → Settings
  | .send device controlDir missed out =>
    let sender := out.override s.sender
    { s with sender := { sender with
      device := device.getD sender.device
      controlDir := controlDir.getD sender.controlDir
      missedPath := missed.getD sender.missedPath } }
  | .simulate _ cores pids _ out =>
    { s with
      sender := out.override s.sender
      capture := { s.capture with
        cores := cores.getD s.capture.cores
        simulatedPids := if pids.isEmpty then s.capture.simulatedPids else pids } }
  | .split _ _ dir format =>
    { s with reader := { s.reader with
      outputDir := dir.getD s.reader.outputDir
      format := format.getD s.reader.format } }
  | .dump _ => s
  | .version => s

/-- The log level in effect: one that was asked for goes before that of a settings file. -/
def Invocation.effectiveLogLevel (i : Invocation) (s : Settings) : String :=
  if i.logLevel != "info" || i.config.isNone then i.logLevel else s.logLevel

end CounterTrace
