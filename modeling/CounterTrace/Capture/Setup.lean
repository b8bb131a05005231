import CounterTrace.Capture.Simulation
import CounterTrace.Description
import CounterTrace.Settings
import CounterTrace.Text.Escaped
import CounterTrace.Text.Lines

/-!
# Setting up a simulated capture

A simulated capture begins with what its settings say.  Then knobs are written by assignments
`NAME=VALUE`, one after the other, and only then is it started.

    s.prepare own assignments = .ok sim      every assignment was good and the capture runs
    sim.description                          shows the period of this run
-/

namespace CounterTrace

/-- Why an assignment cannot be carried out. -/
inductive AssignmentError where
  | noValue (text : String)
  | unknownKnob (name : String)
  | refused (name : String) (why : KnobError)
  deriving DecidableEq, Repr

def AssignmentError.failure : AssignmentError → Failure
  | noValue text => .cause ("knob " ++ Text.escaped text ++ " is not NAME=VALUE")
  | unknownKnob name => .cause ("unknown knob " ++ Text.escaped name)
  | refused name why => .within s!"applying knob {name}" why.failure

namespace Capture

variable {σ : Type} [CounterSource σ]

def assign (c : Capture σ) (text : String) : Except AssignmentError (Capture σ) :=
  match Text.splitOnce '=' text.toList with
  | none => .error (.noValue text)
  | some (name, value) =>
    let name := String.ofList name
    match Knob.ofName? name with
    | none => .error (.unknownKnob name)
    | some knob =>
      match c.apply knob (String.ofList value) with
      | (.ok (), c) => .ok c
      | (.error why, _) => .error (.refused name why)

/-- Carries out assignments up to the first that fails. -/
def assignAll : List String → Capture σ → Except AssignmentError (Capture σ)
  | [], c => .ok c
  | text :: rest, c =>
    match c.assign text with
    | .error e => .error e
    | .ok c => assignAll rest c

end Capture

namespace CaptureSettings

def tickNanos (s : CaptureSettings) : UInt64 :=
  UInt64.ofNat (min s.tick.inNanos (UInt64.size - 1))

/-- A stopped capture.  Without processes of its own it runs process `own` all the time. -/
def capture (s : CaptureSettings) (own : UInt32) : Capture TaskCounters :=
  let pids := if s.simulatedPids.isEmpty then [own] else s.simulatedPids
  .new (Pool.new s.poolSize) s.control (TaskCounters.new s.cores pids) s.cores

/-- A simulation that has just been started, after some assignments. -/
def prepare (s : CaptureSettings) (own : UInt32) (assignments : List String) :
    Except AssignmentError Simulation :=
  match (s.capture own).assignAll assignments with
  | .error e => .error e
  | .ok c => .ok (.start c)

end CaptureSettings

/-- What a session of the simulation says about it: the period of the run and the selectors. -/
def Simulation.description (s : Simulation) : Description :=
  .ofSettings s.capture.control.activePeriod s.capture.control.eventSelects

end CounterTrace
