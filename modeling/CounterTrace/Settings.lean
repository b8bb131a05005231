import CounterTrace.Control
import CounterTrace.Duration
import CounterTrace.Identity.Cache
import CounterTrace.Trace.Format

/-!
# Settings

Settings for capturing, sending and reading.  Every field has a default.  Settings are usable only
if they pass `check`, which reports the first rule that is broken.

    s.check = .ok ()      no rule is broken
    s.capture.control     the control block that a simulated capture begins with
-/

namespace CounterTrace

/-- Settings of a simulated capture. -/
structure CaptureSettings where
  poolSize : Nat := 8
  period : UInt32 := Control.defaultPeriod
  /-- Smallest period that the settings may ask for. -/
  minPeriod : UInt32 := Control.minPeriod
  counterEvents : List UInt32 := Control.defaultEvents
  cores : Nat := 4
  /-- Time between two overflows of a core. -/
  tick : Duration := ⟨0, 1000000⟩
  /-- Processes that take turns; without any, the program itself runs all the time. -/
  simulatedPids : List UInt32 := []
  deriving DecidableEq, Repr

/-- Settings for naming processes. -/
structure IdentitySettings where
  procRoot : String := "/proc"
  templateName : String := IdentityCache.defaultTemplateName
  checks : Nat := IdentityCache.defaultChecks
  deriving DecidableEq, Repr

/-- Settings for sending a session. -/
structure SenderSettings where
  /-- Address of a collector; empty for none. -/
  endpoint : String := ""
  /-- File instead of a collector; empty for none. -/
  output : String := ""
  /-- File that repeats every byte; empty for none. -/
  debugMirror : String := ""
  kbytesLimit : Nat := 0
  warmupBuffers : Nat := 2
  device : String := "/dev/pmu_samples"
  controlDir : String := "/sys/sync_pmu"
  missedPath : String := "/sys/sync_pmu/missed"
  /-- Buffers that may wait between reading and sending. -/
  queueDepth : Nat := 4
  deriving DecidableEq, Repr

/-- Settings for reading a session. -/
structure ReaderSettings where
  outputDir : String := ""
  format : TraceFormat := .binary
  maxCores : Nat := 16
  deriving DecidableEq, Repr

/-- Settings of the metrics server. -/
structure HealthSettings where
  /-- Address to listen on; empty for none. -/
  addr : String := ""
  deriving DecidableEq, Repr

structure Settings where
  logLevel : String := "info"
  capture : CaptureSettings := {}
  identity : IdentitySettings := {}
  sender : SenderSettings := {}
  reader : ReaderSettings := {}
  health : HealthSettings := {}
  deriving DecidableEq, Repr

/-- The broken rule. -/
inductive SettingsError where
  | noBuffers
  | noMinPeriod
  | tooManyEvents (n : Nat)
  | coresOutOfRange
  | noTick
  | noTemplateName
  | twoOutputs
  | noQueue
  | maxCoresOutOfRange
  deriving DecidableEq, Repr

def SettingsError.message : SettingsError → String
  | noBuffers => "capture.pool_size must be positive"
  | noMinPeriod => "capture.min_period must be positive"
  | tooManyEvents n =>
    s!"capture.counter_events has {n} entries, at most {selectorCount} supported"
  | coresOutOfRange => "capture.cores must be between 1 and 256"
  | noTick => "capture.tick must be positive"
  | noTemplateName => "identity.template_name must not be empty"
  | twoOutputs => "sender.endpoint and sender.output are mutually exclusive"
  | noQueue => "sender.queue_depth must be positive"
  | maxCoresOutOfRange => "reader.max_cores must be between 1 and 256"

def coreLimit : Nat := 256

namespace CaptureSettings

/-- The period asked for, raised to the smallest one. -/
def effectivePeriod (c : CaptureSettings) : UInt32 := max c.period c.minPeriod

/-- A stopped capture with these settings. -/
def control (c : CaptureSettings) : Control := .new c.effectivePeriod c.counterEvents

end CaptureSettings

namespace Settings

/-- The rules, in the order in which they are reported, each with whether it is broken. -/
def rules (s : Settings) : List (Bool × SettingsError) :=
  [(s.capture.poolSize == 0, .noBuffers),
    (s.capture.minPeriod == 0, .noMinPeriod),
    (selectorCount < s.capture.counterEvents.length,
      .tooManyEvents s.capture.counterEvents.length),
    (s.capture.cores == 0 || coreLimit < s.capture.cores, .coresOutOfRange),
    (s.capture.tick.isZero, .noTick),
    (s.identity.templateName.isEmpty, .noTemplateName),
    (!s.sender.endpoint.isEmpty && !s.sender.output.isEmpty, .twoOutputs),
    (s.sender.queueDepth == 0, .noQueue),
    (s.reader.maxCores == 0 || coreLimit < s.reader.maxCores, .maxCoresOutOfRange)]

/-- Reports the first broken rule. -/
def check (s : Settings) : Except SettingsError Unit :=
  match s.rules.find? (·.1) with
  | some (_, e) => .error e
  | none => .ok ()

/-! ## Lemmas -/

theorem check_eq_ok_iff (s : Settings) : s.check = .ok () ↔ ∀ r ∈ s.rules, r.1 = false := by
  unfold check
  cases h : s.rules.find? (·.1) with
  | none => simpa using h
  | some r =>
    have hr := List.find?_some h
    have hm := List.mem_of_find?_eq_some h
    constructor
    · intro he; cases he
    · intro ha; rw [ha r hm] at hr; cases hr

/-- The defaults break no rule. -/
theorem check_default : ({} : Settings).check = .ok () := by rfl

end Settings

end CounterTrace
