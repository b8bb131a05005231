import CounterTrace.Trace.Journal

/-!
# Calls to a writer

What is asked of a writer is a list of calls, and the calls made so far take the writer from its
first state to the present one.  A writer never fails if every call succeeds after any others.

    after j (calls ++ more) = after (after j calls) more                 (after_append)
    NeverFails j → NeverFails (after j calls)                            (NeverFails.after)
-/

namespace CounterTrace

/-- What a writer can be asked to do. -/
inductive WriterCall where
  | describe (d : Description)
  | openTrace (key : StreamKey) (cmdline executable : String)
  | samples (key : StreamKey) (samples : List Sample)
  | boundary (key : StreamKey)
  | close (key : StreamKey)
  | index (entries : List IndexEntry)
  deriving DecidableEq, Repr

namespace WriterCall

/-- The trace that a call is about. -/
def key? : WriterCall → Option StreamKey
  | describe _ => none
  | openTrace key _ _ => some key
  | samples key _ => some key
  | boundary key => some key
  | close key => some key
  | index _ => none

def isBoundary : WriterCall → Bool
  | boundary _ => true
  | _ => false

end WriterCall

def samplesOf (key : StreamKey) (calls : List WriterCall) : List Sample :=
  calls.flatMap fun
    | .samples k ss => if k = key then ss else []
    | _ => []

theorem samplesOf_append (key : StreamKey) (calls more : List WriterCall) :
    samplesOf key (calls ++ more) = samplesOf key calls ++ samplesOf key more :=
  List.flatMap_append

namespace TraceWriter

variable {w : Type}

/-- The answer to a call that gives no location. -/
def silent (r : Except Failure Unit × w) : Except Failure (Option String) × w :=
  (r.1.map fun _ => none, r.2)

theorem eq_ok_of_silent {r : Except Failure Unit × w} {answer : Option String}
    (h : (silent r).1 = .ok answer) : r = (.ok (), (silent r).2) := by
  obtain ⟨r, j⟩ := r
  cases r with
  | ok => rfl
  | error f => cases h

variable [TraceWriter w]

/-- Makes a call.  A trace that is opened gives its location. -/
def ask (j : w) : WriterCall → Except Failure (Option String) × w
  | .describe d => silent (describe j d)
  | .openTrace key c e => ((openTrace j key c e).1.map some, (openTrace j key c e).2)
  | .samples key ss => silent (writeSamples j key ss)
  | .boundary key => silent (writeBoundary j key)
  | .close key => silent (close j key)
  | .index es => silent (writeIndex j es)

def after (j : w) (calls : List WriterCall) : w := calls.foldl (fun j call => (ask j call).2) j

/-- Every call succeeds, whatever calls were made before it. -/
def NeverFails (j : w) : Prop :=
  ∀ calls call, ∃ answer, (ask (after j calls) call).1 = .ok answer

/-- The location that a trace was given when it was opened in the course of some calls. -/
def GivenLocation (j : w) (calls : List WriterCall) (key : StreamKey) (location : String) : Prop :=
  ∃ before rest c e, calls = before ++ .openTrace key c e :: rest ∧
    (openTrace (after j before) key c e).1 = .ok location

/-! ## Lemmas -/

@[simp]
theorem after_nil (j : w) : after j [] = j := rfl

theorem after_append (j : w) (calls more : List WriterCall) :
    after j (calls ++ more) = after (after j calls) more := List.foldl_append

theorem GivenLocation.append {j : w} {calls : List WriterCall} {key : StreamKey}
    {location : String} (h : GivenLocation j calls key location) (more : List WriterCall) :
    GivenLocation j (calls ++ more) key location := by
  obtain ⟨before, rest, c, e, rfl, ho⟩ := h
  exact ⟨before, rest ++ more, c, e, by simp, ho⟩

namespace NeverFails

variable {j : w} (hj : NeverFails j)
include hj

protected theorem after (calls : List WriterCall) : NeverFails (after j calls) := by
  intro more call
  rw [← after_append]
  exact hj (calls ++ more) call

theorem describe (d : Description) :
    TraceWriter.describe j d = (.ok (), after j [.describe d]) :=
  have ⟨_, h⟩ := hj [] (.describe d)
  eq_ok_of_silent h

theorem openTrace (key : StreamKey) (c e : String) : ∃ location,
    TraceWriter.openTrace j key c e = (.ok location, after j [.openTrace key c e]) := by
  obtain ⟨_, h⟩ := hj [] (.openTrace key c e)
  simp only [after_nil, ask] at h
  cases hr : (TraceWriter.openTrace j key c e).1 with
  | ok location => exact ⟨location, Prod.ext hr rfl⟩
  | error f => simp [hr, Except.map] at h

theorem writeSamples (key : StreamKey) (ss : List Sample) :
    TraceWriter.writeSamples j key ss = (.ok (), after j [.samples key ss]) :=
  have ⟨_, h⟩ := hj [] (.samples key ss)
  eq_ok_of_silent h

theorem writeBoundary (key : StreamKey) :
    TraceWriter.writeBoundary j key = (.ok (), after j [.boundary key]) :=
  have ⟨_, h⟩ := hj [] (.boundary key)
  eq_ok_of_silent h

theorem close (key : StreamKey) : TraceWriter.close j key = (.ok (), after j [.close key]) :=
  have ⟨_, h⟩ := hj [] (.close key)
  eq_ok_of_silent h

theorem writeIndex (es : List IndexEntry) :
    TraceWriter.writeIndex j es = (.ok (), after j [.index es]) :=
  have ⟨_, h⟩ := hj [] (.index es)
  eq_ok_of_silent h

end NeverFails

end TraceWriter

namespace TraceJournal

open TraceWriter

theorem ask_of_not_failing {j : TraceJournal} (h : j.failing = none) (call : WriterCall) :
    (∃ answer, (ask j call).1 = .ok answer) ∧ (ask j call).2.failing = none := by
  cases call <;>
    simp [ask, silent, TraceWriter.describe, TraceWriter.openTrace, TraceWriter.writeSamples,
      TraceWriter.writeBoundary, TraceWriter.close, TraceWriter.writeIndex, attempt, h, keep,
      Except.map]

/-- A journal that is not told to fail never does. -/
theorem neverFails {j : TraceJournal} (h : j.failing = none) : NeverFails j := by
  intro calls
  induction calls generalizing j with
  | nil => exact fun call => (ask_of_not_failing h call).1
  | cons call calls ih => exact ih (ask_of_not_failing h call).2

end TraceJournal

end CounterTrace
