import CounterTrace.Settings
import CounterTrace.Settings.Value

/-!
# Reading settings

Settings are read from a value, field by field.  A field that is not there has its default; fields
without a meaning are passed over; a field with a wrong kind of value makes the whole unreadable.
-/

namespace CounterTrace

open Value

def Duration.ofValue? (v : Value) : Option Duration := v.text?.bind fun s => read? s.toList

def TraceFormat.ofValue? (f : DocumentFormat) (v : Value) : Option TraceFormat :=
  (choice? f v).bind fun name => [TraceFormat.text, .binary].find? (·.name == name)

def CaptureSettings.ofValue? (f : DocumentFormat) (v : Value) : Option CaptureSettings := do
  let d : CaptureSettings := {}
  let r ← v.record? f ["pool_size", "period", "min_period", "counter_events", "cores", "tick",
    "simulated_pids"]
  return {
    poolSize := ← r.field "pool_size" word64? d.poolSize
    period := ← r.field "period" word32? d.period
    minPeriod := ← r.field "min_period" word32? d.minPeriod
    counterEvents := ← r.field "counter_events" (list? word32?) d.counterEvents
    cores := ← r.field "cores" word64? d.cores
    tick := ← r.field "tick" Duration.ofValue? d.tick
    simulatedPids := ← r.field "simulated_pids" (list? word32?) d.simulatedPids }

def IdentitySettings.ofValue? (f : DocumentFormat) (v : Value) : Option IdentitySettings := do
  let d : IdentitySettings := {}
  let r ← v.record? f ["proc_root", "template_name", "checks"]
  return {
    procRoot := ← r.field "proc_root" text? d.procRoot
    templateName := ← r.field "template_name" text? d.templateName
    checks := ← r.field "checks" (number? UInt32.size) d.checks }

def SenderSettings.ofValue? (f : DocumentFormat) (v : Value) : Option SenderSettings := do
  let d : SenderSettings := {}
  let r ← v.record? f ["endpoint", "output", "debug_mirror", "kbytes_limit", "warmup_buffers",
    "device", "control_dir", "missed_path", "queue_depth"]
  return {
    endpoint := ← r.field "endpoint" text? d.endpoint
    output := ← r.field "output" text? d.output
    debugMirror := ← r.field "debug_mirror" text? d.debugMirror
    kbytesLimit := ← r.field "kbytes_limit" word64? d.kbytesLimit
    warmupBuffers := ← r.field "warmup_buffers" word64? d.warmupBuffers
    device := ← r.field "device" text? d.device
    controlDir := ← r.field "control_dir" text? d.controlDir
    missedPath := ← r.field "missed_path" text? d.missedPath
    queueDepth := ← r.field "queue_depth" word64? d.queueDepth }

def ReaderSettings.ofValue? (f : DocumentFormat) (v : Value) : Option ReaderSettings := do
  let d : ReaderSettings := {}
  let r ← v.record? f ["output_dir", "format", "max_cores"]
  return {
    outputDir := ← r.field "output_dir" text? d.outputDir
    format := ← r.field "format" (TraceFormat.ofValue? f) d.format
    maxCores := ← r.field "max_cores" word64? d.maxCores }

def HealthSettings.ofValue? (f : DocumentFormat) (v : Value) : Option HealthSettings := do
  let r ← v.record? f ["addr"]
  return { addr := ← r.field "addr" text? "" }

def Settings.ofValue? (f : DocumentFormat) (v : Value) : Option Settings := do
  let r ← v.record? f ["log_level", "capture", "identity", "sender", "reader", "health"]
  return {
    logLevel := ← r.field "log_level" text? ({} : Settings).logLevel
    capture := ← r.field "capture" (CaptureSettings.ofValue? f) {}
    identity := ← r.field "identity" (IdentitySettings.ofValue? f) {}
    sender := ← r.field "sender" (SenderSettings.ofValue? f) {}
    reader := ← r.field "reader" (ReaderSettings.ofValue? f) {}
    health := ← r.field "health" (HealthSettings.ofValue? f) {} }

end CounterTrace
