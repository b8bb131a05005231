import CounterTrace.Proofs.Capture.Pipeline

/-!
# Overflows and a stop at the same time

Cores overflow while the capture is stopped and the consumer drains.  Here an overflow and a stop
are sequences of atomic steps, each of which reads or changes the capture once, and any other step
may come between two of them.  Only the lock on the slot of a core keeps others out: an overflow
holds it from the moment it has it until it returns, and whoever needs it waits.

    call.next c                one step of an overflow
    s.move m, s.run ms         what one move does to all that goes on, and what moves do

Undisturbed, the steps of an overflow do what `Capture.overflow` does (`run_call_alone`), and those
of a stop do what `Capture.stop` does (`run_stop_alone`).
-/

namespace CounterTrace

/-! ## The steps of an overflow -/

/-- Why there is no buffer for a sample. -/
inductive NoBuffer where
  /-- The pool was found closed. -/
  | closed
  /-- The pool was found open and without a free buffer. -/
  | exhausted
  deriving DecidableEq, Repr

/-- What an overflow returns, with the sample that it took. -/
inductive CallResult where
  | recorded (s : Sample)
  | published (s : Sample)
  | missed (why : NoBuffer)
  | ignored
  deriving DecidableEq, Repr

/-- The answer without what is known beyond it. -/
def CallResult.outcome : CallResult → Overflow
  | .recorded _ => .recorded
  | .published _ => .published
  | .missed _ => .missed
  | .ignored => .ignored

/-- The sample that was put into a buffer. -/
def CallResult.taken : CallResult → List Sample
  | .recorded s => [s]
  | .published s => [s]
  | _ => []

/-- What an overflow does next. -/
inductive Phase where
  /-- It counts itself. -/
  | counting
  /-- It looks whether the capture runs. -/
  | checkingStatus
  /-- It looks whether the pool is open, and whether the core exists. -/
  | checkingPool
  | readingPeriod
  /-- It takes the lock on the slot of its core and looks into the slot. -/
  | waiting
  /-- It has found the slot empty and looks whether the capture still runs. -/
  | checkingAgain
  /-- It looks whether the pool is still open. -/
  | acquiring
  /-- It takes a free buffer and puts it into the slot. -/
  | taking
  /-- It reads its sample, puts it into the buffer, and takes a buffer that is full out again. -/
  | sampling
  /-- It queues the buffer that it has taken out. -/
  | publishing (b : Buffer) (s : Sample)
  /-- It counts a missed sample. -/
  | missing (why : NoBuffer)
  /-- It arms its core and gives up the lock. -/
  | arming (r : CallResult)
  | returned (r : CallResult)
  deriving DecidableEq, Repr

namespace Phase

/-- Whether the lock on the slot is held before the next step. -/
def holds : Phase → Bool
  | checkingAgain | acquiring | taking | sampling | publishing .. | missing _ | arming _ => true
  | _ => false

/-- The buffer that is in no other place. -/
def inHand : Phase → List Buffer
  | publishing b _ => [b]
  | _ => []

/-- Whether there is nothing left to do. -/
def Returned (phase : Phase) : Prop := ∃ result, phase = returned result

instance (phase : Phase) : Decidable phase.Returned := by
  unfold Returned
  cases phase with
  | returned result => exact isTrue ⟨result, rfl⟩
  | _ => exact isFalse fun ⟨result, h⟩ => by cases h

/-- The sample that was put into a buffer. -/
def taken : Phase → List Sample
  | publishing _ s => [s]
  | arming r => r.taken
  | returned r => r.taken
  | _ => []

end Phase

/-- An overflow that is under way. -/
structure Call where
  core : UInt32
  /-- The period that the overflow has read. -/
  period : UInt32 := 0
  phase : Phase := .counting
  deriving DecidableEq, Repr

namespace Call

variable {σ : Type} [CounterSource σ]

/-- One step of an overflow that need not wait. -/
def next (call : Call) (c : Capture σ) : Call × Capture σ :=
  let go (phase : Phase) : Call := { call with phase := phase }
  let slot := c.active[call.core.toNat]?
  match call.phase with
  | .counting => (go .checkingStatus, { c with control := c.control.recordOverflow })
  | .checkingStatus => (go (if c.control.isRunning then .checkingPool else .returned .ignored), c)
  | .checkingPool =>
    (go (if c.pool.shutdown || slot.isNone then .returned .ignored else .readingPeriod), c)
  | .readingPeriod => ({ go .waiting with period := c.control.activePeriod }, c)
  | .waiting =>
    match slot with
    | some (some _) => (go .sampling, c)
    | _ => (go .checkingAgain, c)
  | .checkingAgain => (go (if c.control.isRunning then .acquiring else .returned .ignored), c)
  | .acquiring => (go (if c.pool.shutdown then .missing .closed else .taking), c)
  | .taking =>
    match c.pool.free with
    | [] => (go (.missing .exhausted), c)
    | b :: rest =>
      (go .sampling, { c with
        pool := { c.pool with free := rest }
        active := c.active.set call.core.toNat (some (b.reset call.core)) })
  | .sampling =>
    let (s, source) := Capture.snapshot call.core call.period c.source
    match slot with
    | some (some b) =>
      let b := b.push s
      if b.isFull then
        (go (.publishing b s),
          { c with source := source, active := c.active.set call.core.toNat none })
      else
        (go (.arming (.recorded s)),
          { c with source := source, active := c.active.set call.core.toNat (some b) })
    | _ => (go (.arming (.recorded s)), { c with source := source })
  | .publishing b s => (go (.arming (.published s)), { c with pool := c.pool.publish b })
  | .missing why => (go (.arming (.missed why)), { c with control := c.control.recordMissed })
  | .arming r =>
    (go (.returned r), { c with source := CounterSource.rearm c.source call.core call.period })
  | .returned _ => (call, c)

theorem core_next (call : Call) (c : Capture σ) : (call.next c).1.core = call.core := by
  unfold next
  dsimp only
  repeat' split
  all_goals rfl

end Call

/-! ## The steps of a stop, and everything at once -/

/-- What a stop does next. -/
inductive StopPhase where
  /-- It halts the capture. -/
  | calling
  /-- It takes the lock on slot `i`, takes out what is in the slot, and gives the lock up.  Once
  there is no such slot it closes the pool. -/
  | flushing (i : Nat)
  /-- It queues the buffer that it has taken out of slot `i`, or gives it back if it is empty. -/
  | handing (i : Nat) (b : Buffer)
  | returned
  deriving DecidableEq, Repr

/-- The buffer that is in no other place. -/
def StopPhase.inHand : StopPhase → List Buffer
  | handing _ b => [b]
  | _ => []

/-- A capture with its consumer, overflows that are under way, and a stop. -/
structure Scene (σ : Type) where
  pipeline : Pipeline σ
  calls : List Call
  stop : StopPhase := .calling

/-- Whose turn it is. -/
inductive Move (σ : Type) where
  /-- The overflow with number `k` goes on. -/
  | call (k : Nat)
  | stop
  /-- The consumer takes the oldest completed buffer, if there is one. -/
  | drain
  /-- The consumer gives back the held buffer with number `i`, if there is one. -/
  | release (i : Nat)
  /-- Clocks, tasks and event counters go on. -/
  | elapse (source : σ)

namespace Scene

variable {σ : Type}

/-- Overflows of the given cores that have not begun, and a stop that has not begun. -/
def new (p : Pipeline σ) (cores : List UInt32) : Scene σ where
  pipeline := p
  calls := cores.map fun core => { core := core }

def capture (s : Scene σ) : Capture σ := s.pipeline.capture

def withCapture (s : Scene σ) (c : Capture σ) : Scene σ :=
  { s with pipeline := { s.pipeline with capture := c } }

/-- Whether an overflow has the lock on a slot. -/
def isLocked (s : Scene σ) (i : Nat) : Bool :=
  s.calls.any fun call => call.phase.holds && call.core.toNat == i

/-- A stop goes on, unless it has to wait. -/
def moveStop (s : Scene σ) : Scene σ :=
  match s.stop with
  | .calling =>
    { s.withCapture { s.capture with control := s.capture.control.halt } with stop := .flushing 0 }
  | .flushing i =>
    match s.capture.active[i]? with
    | none =>
      { s.withCapture { s.capture with pool := s.capture.pool.close } with stop := .returned }
    | some slot =>
      if s.isLocked i then s
      else
        match slot with
        | none => { s with stop := .flushing (i + 1) }
        | some b =>
          { s.withCapture { s.capture with active := s.capture.active.set i none } with
            stop := .handing i b }
  | .handing i b =>
    { s.withCapture { s.capture with pool := Capture.flushBuffer s.capture.pool b } with
      stop := .flushing (i + 1) }
  | .returned => s

variable [CounterSource σ]

/-- An overflow goes on, unless it has to wait. -/
def moveCall (s : Scene σ) (k : Nat) : Scene σ :=
  match s.calls[k]? with
  | none => s
  | some call =>
    if call.phase = .waiting ∧ s.isLocked call.core.toNat then s
    else
      { s.withCapture (call.next s.capture).2 with
        calls := s.calls.set k (call.next s.capture).1 }

def move (s : Scene σ) : Move σ → Scene σ
  | .call k => s.moveCall k
  | .stop => s.moveStop
  | .drain => { s with pipeline := s.pipeline.drain }
  | .release i => { s with pipeline := s.pipeline.release i }
  | .elapse source => s.withCapture { s.capture with source := source }

def run (s : Scene σ) (moves : List (Move σ)) : Scene σ := moves.foldl move s

end Scene

/-! ## Undisturbed -/

namespace Call

variable {σ : Type} [CounterSource σ]

/-- Steps of an overflow that nothing else disturbs. -/
def steps : Nat → Call × Capture σ → Call × Capture σ
  | 0, r => r
  | n + 1, r => steps n (r.1.next r.2)

theorem steps_add (m n : Nat) (r : Call × Capture σ) : steps (m + n) r = steps n (steps m r) := by
  induction m generalizing r with
  | zero => rw [Nat.zero_add, steps]
  | succ m ih => rw [Nat.succ_add, steps, ih, steps]

theorem steps_of_returned {r : Call × Capture σ} {result : CallResult}
    (hr : r.1.phase = .returned result) (n : Nat) : steps n r = r := by
  induction n with
  | zero => rfl
  | succ n ih =>
    have hnext : r.1.next r.2 = r := by
      unfold next
      rw [hr]
    rw [steps, hnext, ih]

/-- An overflow that has its buffer in the slot goes on to record its sample. -/
theorem steps_of_sampling {call : Call} {c : Capture σ} {b : Buffer}
    (hphase : call.phase = .sampling) (hperiod : call.period = c.control.activePeriod)
    (hslot : c.active[call.core.toNat]? = some (some b)) (n : Nat) :
    (steps (n + 3) (call, c)).2 = (c.record call.core b).2 ∧
      ∃ result, (steps (n + 3) (call, c)).1.phase = .returned result ∧
        result.outcome = (c.record call.core b).1 := by
  cases hfull :
    (b.push (Capture.snapshot call.core c.control.activePeriod c.source).1).isFull with
  | true =>
    simp only [steps, next, hphase, hslot, hperiod, hfull, if_true, Capture.record]
    rw [steps_of_returned rfl]
    exact ⟨rfl, _, rfl, rfl⟩
  | false =>
    simp only [steps, next, hphase, hslot, hperiod, hfull, Bool.false_eq_true, if_false,
      Capture.record]
    rw [steps_of_returned rfl]
    exact ⟨rfl, _, rfl, rfl⟩

/-- No overflow needs more than eleven steps. -/
theorem steps_eq_overflow (core : UInt32) (c : Capture σ) :
    (steps 11 ({ core := core }, c)).2 = (c.overflow core).2 ∧
      ∃ result, (steps 11 ({ core := core }, c)).1.phase = .returned result ∧
        result.outcome = (c.overflow core).1 := by
  have hrun : c.control.recordOverflow.isRunning = c.control.isRunning := rfl
  have hperiod : c.control.recordOverflow.activePeriod = c.control.activePeriod := rfl
  cases hrunning : c.control.isRunning with
  | false => simp [steps, next, Capture.overflow, hrun, hrunning, CallResult.outcome]
  | true =>
    cases hopen : c.pool.shutdown with
    | true => simp [steps, next, Capture.overflow, hrun, hrunning, hopen, CallResult.outcome]
    | false =>
      rcases hslot : c.active[core.toNat]? with _ | _ | b
      · simp [steps, next, Capture.overflow, hrun, hrunning, hopen, hslot, CallResult.outcome]
      · cases hfree : c.pool.free with
        | nil =>
          simp [steps, next, Capture.overflow, hrun, hrunning, hopen, hslot, hfree, Pool.acquire,
            Capture.miss, CallResult.outcome]
        | cons b rest =>
          obtain ⟨hlt, -⟩ := List.getElem?_eq_some_iff.1 hslot
          let c' : Capture σ := { c with
            control := c.control.recordOverflow
            pool := { c.pool with free := rest }
            active := c.active.set core.toNat (some (b.reset core)) }
          have htaken : steps 8 ({ core := core }, c) =
              (⟨core, c.control.activePeriod, .sampling⟩, c') := by
            simp [steps, next, hrun, hrunning, hopen, hslot, hfree, hperiod, c']
          have hoverflow : c.overflow core = c'.record core (b.reset core) := by
            simp [Capture.overflow, hrun, hrunning, hopen, hslot, hfree, Pool.acquire,
              Capture.record, c']
          rw [steps_add 8 3, htaken, hoverflow]
          exact steps_of_sampling rfl rfl (List.getElem?_set_self hlt) 0
      · have hlocked : steps 5 ({ core := core }, c) =
            (⟨core, c.control.activePeriod, .sampling⟩,
              { c with control := c.control.recordOverflow }) := by
          simp [steps, next, hrun, hrunning, hopen, hslot, hperiod]
        have hoverflow : c.overflow core =
            { c with control := c.control.recordOverflow }.record core b := by
          simp [Capture.overflow, hrun, hrunning, hopen, hslot]
        rw [steps_add 5 6, hlocked, hoverflow]
        exact steps_of_sampling rfl rfl hslot 3

end Call

namespace Scene

variable {σ : Type}

/-- **An overflow that nothing disturbs** does what an overflow of the capture does. -/
theorem run_call_alone [CounterSource σ] (p : Pipeline σ) (core : UInt32) :
    let s := (new p [core]).run (List.replicate 11 (.call 0))
    s.pipeline = p.step (.overflow core) ∧
      ∃ call result, s.calls = [call] ∧ call.phase = .returned result ∧
        result.outcome = (p.capture.overflow core).1 := by
  have hmove : ∀ (s : Scene σ) (call : Call), s.calls = [call] →
      s.move (.call 0) =
        { s.withCapture (call.next s.capture).2 with calls := [(call.next s.capture).1] } := by
    intro s call hcalls
    have hfree : ¬ (call.phase = .waiting ∧ s.isLocked call.core.toNat) := by
      rintro ⟨hphase, hlocked⟩
      simp [isLocked, hcalls, hphase, Phase.holds] at hlocked
    simp only [move, moveCall, hcalls, List.getElem?_cons_zero, if_neg hfree, List.set_cons_zero]
  have hrun : ∀ (n : Nat) (s : Scene σ) (call : Call), s.calls = [call] →
      let r := Call.steps n (call, s.capture)
      s.run (List.replicate n (.call 0)) = { s.withCapture r.2 with calls := [r.1] } := by
    intro n
    induction n with
    | zero =>
      intro s call hcalls
      obtain ⟨pipeline, calls, stop⟩ := s
      cases hcalls
      rfl
    | succ n ih =>
      intro s call hcalls
      rw [List.replicate_succ, run, List.foldl_cons, hmove s call hcalls]
      exact ih _ _ rfl
  obtain ⟨hcapture, result, hreturned, houtcome⟩ := Call.steps_eq_overflow core p.capture
  intro s
  have hs : s = _ := hrun 11 (new p [core]) { core := core } rfl
  rw [hs]
  refine ⟨?_, _, result, rfl, hreturned, houtcome⟩
  simp only [Pipeline.step, ← hcapture]
  rfl

theorem run_append [CounterSource σ] (s : Scene σ) (moves more : List (Move σ)) :
    s.run (moves ++ more) = (s.run moves).run more := List.foldl_append

/-- A stop that nothing disturbs flushes one slot after the other and closes the pool. -/
theorem run_flushing [CounterSource σ] (k : Nat) : ∀ (s : Scene σ) (i : Nat), s.calls = [] →
    s.stop = .flushing i → s.capture.active.length = i + k →
    ∃ n, s.run (List.replicate n .stop) =
      { s.withCapture { s.capture with
          pool := (((s.capture.active.drop i).filterMap id).foldl Capture.flushBuffer
            s.capture.pool).close
          active := s.capture.active.take i ++ List.replicate k none } with
        stop := .returned } := by
  induction k with
  | zero =>
    intro s i hcalls hstop hlength
    have hnone : s.capture.active[i]? = none := List.getElem?_eq_none (by omega)
    refine ⟨1, ?_⟩
    simp only [List.replicate, run, List.foldl_cons, List.foldl_nil, move, moveStop, hstop, hnone]
    rw [List.drop_of_length_le (by omega), List.take_of_length_le (by omega), List.append_nil]
    rfl
  | succ k ih =>
    intro s i hcalls hstop hlength
    have hi : i < s.capture.active.length := by omega
    have hfree : s.isLocked i = false := by simp [isLocked, hcalls]
    obtain ⟨slot, hget⟩ : ∃ slot, s.capture.active[i]? = some slot :=
      ⟨_, List.getElem?_eq_getElem hi⟩
    obtain ⟨before, after, hactive, rfl, hset⟩ := exists_around hget
    rw [hactive] at hlength
    simp only [List.length_append, List.length_cons] at hlength
    let s' : Scene σ :=
      { s.withCapture { s.capture with
          pool := slot.toList.foldl Capture.flushBuffer s.capture.pool
          active := before ++ none :: after } with
        stop := .flushing (before.length + 1) }
    -- the lock is free, so the slot takes one move, and one more if a buffer has to be queued
    have hslot : s.run (List.replicate (1 + slot.toList.length) .stop) = s' := by
      cases slot with
      | none =>
        simp only [Option.toList_none, List.length_nil, List.replicate, run, List.foldl_cons,
          List.foldl_nil, move, moveStop, hstop, hget, hfree, Bool.false_eq_true, if_false, s']
        rw [← hactive]
        rfl
      | some b =>
        simp only [Option.toList_some, List.length_singleton, List.replicate, run,
          List.foldl_cons, List.foldl_nil, move, moveStop, hstop, hget, hfree,
          Bool.false_eq_true, if_false, hset]
        rfl
    obtain ⟨n, hn⟩ := ih s' (before.length + 1) hcalls rfl (by
      simp only [s', capture, withCapture, List.length_append, List.length_cons]
      omega)
    refine ⟨1 + slot.toList.length + n, ?_⟩
    rw [← List.replicate_append_replicate, run_append, hslot, hn, hactive]
    have htake : (before ++ none :: after).take (before.length + 1) = before ++ [none] := by
      rw [List.take_length_add_append, List.take_succ_cons, List.take_zero]
    cases slot <;> simp [s', capture, withCapture, htake, List.replicate_succ]

/-- **A stop that nothing disturbs** does what a stop of the capture does. -/
theorem run_stop_alone [CounterSource σ] (p : Pipeline σ) :
    ∃ n, let s := (new p []).run (List.replicate n .stop)
      s.pipeline = p.step .stop ∧ s.stop = .returned := by
  let s : Scene σ := (new p []).moveStop
  have hlength : s.capture.active.length = 0 + p.capture.active.length := (Nat.zero_add _).symm
  obtain ⟨n, hn⟩ := run_flushing p.capture.active.length s 0 rfl rfl hlength
  refine ⟨n + 1, ?_⟩
  rw [List.replicate_succ, run, List.foldl_cons]
  have hs : (new p []).move .stop = s := rfl
  rw [hs, ← run, hn]
  refine ⟨?_, rfl⟩
  simp only [Pipeline.step, Capture.stop, Capture.flush, List.map_const']
  rfl

end Scene

end CounterTrace
