import CounterTrace.Proofs.Capture.Pipeline

/-!
# Watching a counter source

A watched source is any source with a list of the cycle counts that were read off it and of the
cores that were armed.  A capture never looks into its source, so whatever is done to a watched
capture is what is done to the capture itself, and the list says which calls that took.

    (c.watched calls).overflow core
      = ((c.overflow core).1, (c.overflow core).2.watched (calls ++ c.callsFor core …))
                                                                            (overflow_watched)
    (p.watched []).step e.watched = (p.step e).watched (p.calls e)              (step_watched)

An overflow arms its own core once, unless it is ignored, a start arms every core once, and nothing
else calls the source (`Pipeline.calls`).
-/

namespace CounterTrace

/-! ## Watched sources -/

/-- A call of a source that matters for time. -/
inductive SourceCall where
  /-- The cycle counter of a core was read. -/
  | cycles (core : UInt32) (answer : UInt64)
  /-- The next period of a core was started. -/
  | rearm (core period : UInt32)
  deriving DecidableEq, Repr

/-- A source with the calls that were made, the earliest first. -/
structure WatchedSource (σ : Type) where
  source : σ
  calls : List SourceCall

variable {σ : Type} [CounterSource σ]

instance : CounterSource (WatchedSource σ) where
  available w := CounterSource.available w.source
  readCounter w core i :=
    let (value, source) := CounterSource.readCounter w.source core i
    (value, { w with source := source })
  readCycles w core :=
    let (answer, source) := CounterSource.readCycles w.source core
    (answer, ⟨source, w.calls ++ [.cycles core answer]⟩)
  currentPid w core :=
    let (pid, source) := CounterSource.currentPid w.source core
    (pid, { w with source := source })
  rearm w core period :=
    ⟨CounterSource.rearm w.source core period, w.calls ++ [.rearm core period]⟩

namespace Capture

/-- A capture whose source is watched, after some calls. -/
def watched {σ : Type} (c : Capture σ) (calls : List SourceCall) : Capture (WatchedSource σ) :=
  ⟨c.pool, c.control, ⟨c.source, calls⟩, c.active⟩

/-! ## Overflows -/

/-- The cycle count that a snapshot reads, after the event counters. -/
def cyclesRead (core : UInt32) (s : σ) : UInt64 :=
  (CounterSource.readCycles
    (readCounters core 0 (min (CounterSource.available s) maxCounters) s).2 core).1

theorem cycles_snapshot (core period : UInt32) (s : σ) :
    (snapshot core period s).1.cycles = cyclesRead core s + period.toUInt64 := rfl

theorem readCounters_watched (core : UInt32) (i n : Nat) (s : σ) (calls : List SourceCall) :
    readCounters core i n (⟨s, calls⟩ : WatchedSource σ) =
      ((readCounters core i n s).1, ⟨(readCounters core i n s).2, calls⟩) := by
  induction n generalizing i s with
  | zero => rfl
  | succ n ih => simp only [readCounters, CounterSource.readCounter, ih]

theorem snapshot_watched (core period : UInt32) (s : σ) (calls : List SourceCall) :
    snapshot core period (⟨s, calls⟩ : WatchedSource σ) =
      ((snapshot core period s).1,
        ⟨(snapshot core period s).2, calls ++ [.cycles core (cyclesRead core s)]⟩) := by
  have havailable : CounterSource.available (⟨s, calls⟩ : WatchedSource σ) =
    CounterSource.available s := rfl
  simp only [snapshot, havailable, readCounters_watched]
  rfl

/-- The calls that belong to an answer to an overflow. -/
def callsFor (c : Capture σ) (core : UInt32) : Overflow → List SourceCall
  | .recorded | .published =>
    [.cycles core (cyclesRead core c.source), .rearm core c.control.activePeriod]
  | .missed => [.rearm core c.control.activePeriod]
  | .ignored => []

theorem record_watched (c : Capture σ) (core : UInt32) (b : Buffer) (calls : List SourceCall) :
    (c.watched calls).record core b =
      ((c.record core b).1,
        (c.record core b).2.watched (calls ++ c.callsFor core (c.record core b).1)) := by
  have hcontrol : (c.watched calls).control = c.control := rfl
  have hsource : (c.watched calls).source = ⟨c.source, calls⟩ := rfl
  simp only [record, hcontrol, hsource, snapshot_watched]
  split
  · simp [watched, callsFor, CounterSource.rearm]
  · simp [watched, callsFor, CounterSource.rearm]

theorem overflow_watched (c : Capture σ) (core : UInt32) (calls : List SourceCall) :
    (c.watched calls).overflow core =
      ((c.overflow core).1,
        (c.overflow core).2.watched (calls ++ c.callsFor core (c.overflow core).1)) := by
  have hpool : (c.watched calls).pool = c.pool := rfl
  have hactive : (c.watched calls).active = c.active := rfl
  have hcontrol : (c.watched calls).control = c.control := rfl
  simp only [overflow, hpool, hactive, hcontrol]
  split
  · simp [watched, callsFor]
  split
  · simp [watched, callsFor]
  · exact record_watched { c with control := c.control.recordOverflow } core _ calls
  · split
    · next b pool _ =>
      exact record_watched { c with control := c.control.recordOverflow, pool := pool } core _ calls
    · rfl

/-! ## Starts, stops and knobs -/

def startCalls (c : Capture σ) : List SourceCall :=
  (List.range c.cores).map fun i => .rearm (UInt32.ofNat i) c.start.control.activePeriod

theorem foldl_rearm_watched (is : List Nat) (period : UInt32) (s : σ) (calls : List SourceCall) :
    is.foldl (fun w i => CounterSource.rearm w (UInt32.ofNat i) period)
        (⟨s, calls⟩ : WatchedSource σ) =
      ⟨is.foldl (fun s i => CounterSource.rearm s (UInt32.ofNat i) period) s,
        calls ++ is.map fun i => .rearm (UInt32.ofNat i) period⟩ := by
  induction is generalizing s calls with
  | nil => simp
  | cons i is ih =>
    rw [List.foldl_cons, List.foldl_cons, List.map_cons, ← List.singleton_append,
      ← List.append_assoc, ← ih]
    rfl

theorem start_watched (c : Capture σ) (calls : List SourceCall) :
    (c.watched calls).start = c.start.watched (calls ++ c.startCalls) := by
  have hcores : c.discardActive.cores = c.cores := by simp [discardActive, cores]
  have hcores' : (c.watched calls).discardActive.cores = c.discardActive.cores := rfl
  have hsource : (c.watched calls).discardActive.source = ⟨c.source, calls⟩ := rfl
  rw [startCalls, ← hcores]
  simp only [start, hcores', hsource, foldl_rearm_watched]
  rfl

theorem apply_watched (c : Capture σ) (knob : Knob) (raw : String) (calls : List SourceCall) :
    ((c.watched calls).apply knob raw).2 =
      (c.apply knob raw).2.watched (calls ++
        if (PipelineEvent.apply (σ := σ) knob raw).request? c.control = some .start then
          c.startCalls
        else []) := by
  have hcontrol : (c.watched calls).control = c.control := rfl
  cases hwrite : c.control.write knob raw with
  | error e => simp [apply, hcontrol, PipelineEvent.request?, hwrite]
  | ok written =>
    obtain ⟨request, control⟩ := written
    simp only [apply, hcontrol, PipelineEvent.request?, hwrite]
    cases request with
    | none => simp [watched]
    | some request =>
      cases request with
      | start =>
        obtain rfl : control = c.control := (Control.write_ok hwrite).2.2.2.2 (by simp)
        simp only [if_true]
        exact c.start_watched calls
      | stop =>
        simp only [Option.some.injEq, reduceCtorEq, if_false, List.append_nil]
        rfl
      | dump => simp [watched]

end Capture

/-! ## Watching a pipeline -/

/-- The same event for a watched pipeline. -/
def PipelineEvent.watched {σ : Type} : PipelineEvent σ → PipelineEvent (WatchedSource σ)
  | .overflow core => .overflow core
  | .start => .start
  | .stop => .stop
  | .flush => .flush
  | .apply knob raw => .apply knob raw
  | .drain => .drain
  | .release i => .release i
  | .close => .close
  | .reopen => .reopen
  | .elapse source => .elapse ⟨source, []⟩

namespace Pipeline

/-- A pipeline whose source is watched, after some calls. -/
def watched {σ : Type} (p : Pipeline σ) (calls : List SourceCall) : Pipeline (WatchedSource σ) :=
  ⟨p.capture.watched calls, p.held, p.drained⟩

/-- The calls of an event: those of its answer for an overflow, one for each core for a start,
whichever way it is asked for, and none for anything else. -/
def calls (p : Pipeline σ) : PipelineEvent σ → List SourceCall
  | .overflow core => p.capture.callsFor core (p.capture.overflow core).1
  | e => if e.request? p.capture.control = some .start then p.capture.startCalls else []

/-- An event does to a watched pipeline what it does to the pipeline, with the calls of the event
and no others. -/
theorem step_watched (p : Pipeline σ) (e : PipelineEvent σ) :
    (p.watched []).step e.watched = (p.step e).watched (p.calls e) := by
  cases e with
  | overflow core =>
    have h := p.capture.overflow_watched core []
    exact congrArg (fun r => (⟨r.2, p.held, p.drained⟩ : Pipeline (WatchedSource σ))) h
  | start =>
    have h := p.capture.start_watched []
    exact congrArg (fun c => (⟨c, p.held, p.drained⟩ : Pipeline (WatchedSource σ))) h
  | apply knob raw =>
    have h := p.capture.apply_watched knob raw []
    exact congrArg (fun c => (⟨c, p.held, p.drained⟩ : Pipeline (WatchedSource σ))) h
  | drain =>
    have hpool : (p.watched []).capture.pool = p.capture.pool := rfl
    simp only [step, PipelineEvent.watched, drain, hpool]
    split <;> rfl
  | release i =>
    have hheld : (p.watched []).held = p.held := rfl
    simp only [step, PipelineEvent.watched, release, hheld]
    split <;> rfl
  | stop => rfl
  | flush => rfl
  | close => rfl
  | reopen => rfl
  | elapse source => rfl

end Pipeline

end CounterTrace
