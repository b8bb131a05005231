import CounterTrace.Trace.Splitter

/-!
# Trace journals

A journal is a trace writer that keeps what it was asked to do.  It can be told to fail once, at a
given call of a given kind; a call that fails is not kept.
-/

namespace CounterTrace

/-- The kinds of calls. -/
inductive TraceCallKind where
  | describe
  | openTrace
  | samples
  | boundary
  | close
  | index
  deriving DecidableEq, Repr

def TraceCallKind.name : TraceCallKind → String
  | .describe => "describe"
  | .openTrace => "open"
  | .samples => "samples"
  | .boundary => "boundary"
  | .close => "close"
  | .index => "index"

/-- A call that was carried out. -/
inductive TraceCall where
  | describe (d : Description)
  | openTrace (key : StreamKey) (cmdline executable : String)
  | samples (key : StreamKey) (samples : List Sample)
  | boundary (key : StreamKey)
  | index (entries : List IndexEntry)
  deriving DecidableEq, Repr

/-- The calls so far. -/
structure TraceJournal where
  /-- Calls other than closing, in order. -/
  calls : List TraceCall := []
  closed : Nat := 0
  /-- Which call is to fail: a kind, and the number of calls of that kind before it. -/
  failing : Option (TraceCallKind × Nat) := none
  deriving Repr

namespace TraceJournal

/-- Carries out a call of a kind, or fails. -/
def attempt {α : Type} (j : TraceJournal) (kind : TraceCallKind) (answer : α)
    (done : TraceJournal → TraceJournal) : Except Failure α × TraceJournal :=
  match j.failing with
  | some (k, 0) =>
    if k = kind then (.error (.cause (kind.name ++ " failed")), { j with failing := none })
    else (.ok answer, done j)
  | some (k, n + 1) =>
    if k = kind then (.ok answer, done { j with failing := some (k, n) })
    else (.ok answer, done j)
  | none => (.ok answer, done j)

def keep (call : TraceCall) (j : TraceJournal) : TraceJournal :=
  { j with calls := j.calls ++ [call] }

def location (key : StreamKey) : String :=
  "loc-" ++ toString key.core.toNat ++ "-" ++ toString key.pid.toNat

instance : TraceWriter TraceJournal where
  describe j d := j.attempt .describe () (keep (.describe d))
  openTrace j key cmdline executable :=
    j.attempt .openTrace (location key) (keep (.openTrace key cmdline executable))
  writeSamples j key samples := j.attempt .samples () (keep (.samples key samples))
  writeBoundary j key := j.attempt .boundary () (keep (.boundary key))
  close j _ := j.attempt .close () fun j => { j with closed := j.closed + 1 }
  writeIndex j entries := j.attempt .index () (keep (.index entries))

end TraceJournal

end CounterTrace
