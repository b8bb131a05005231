import Mathlib.Data.List.Basic
import CounterTrace.Capture
import CounterTrace.Proofs.Capture.Knobs

/-!
# Captures with a consumer

A pipeline is a capture and the consumer of its buffers.  Anything may happen to it, any number of
times and in any order: cores overflow, the capture is started, stopped, flushed and steered by
knobs, and the consumer takes buffers, gives them back, and closes and opens the pool.

    p.step e, p.run es                  what one event does, and what events do one after the other
    c.Overflowed core outcome c'        all that an overflow can do                (overflow_cases)
    c.flush.2.pool, c.discardActive.pool                            (pool_flush, pool_discardActive)
    (c.apply knob raw).2                a start, a stop, or the same with other knobs
                                                                                     (apply_cases)
-/

namespace CounterTrace

/-! ## Events -/

/-- A capture with the consumer of its buffers. -/
structure Pipeline (σ : Type) where
  capture : Capture σ
  /-- Buffers that the consumer has and has not given back. -/
  held : List Buffer := []
  /-- All buffers that the consumer ever took, as they were then, the earliest first. -/
  drained : List Buffer := []

/-- What can happen to a capture and its consumer. -/
inductive PipelineEvent (σ : Type) where
  | overflow (core : UInt32)
  | start
  | stop
  | flush
  | apply (knob : Knob) (raw : String)
  /-- The consumer takes the oldest completed buffer, if there is one. -/
  | drain
  /-- The consumer gives back the held buffer with number `i`, if there is one. -/
  | release (i : Nat)
  | close
  | reopen
  /-- Clocks, tasks and event counters go on. -/
  | elapse (source : σ)

namespace Pipeline

variable {σ : Type}

/-- A capture on a number of cores with a pool of its own, and a consumer that has no buffer. -/
def new (capacity cores : Nat) (control : Control) (source : σ) : Pipeline σ where
  capture := .new (.new capacity) control source cores

def drain (p : Pipeline σ) : Pipeline σ :=
  match p.capture.pool.tryDrain with
  | (some b, pool) =>
    { capture := { p.capture with pool := pool }
      held := p.held ++ [b], drained := p.drained ++ [b] }
  | (none, _) => p

def release (p : Pipeline σ) (i : Nat) : Pipeline σ :=
  match p.held[i]? with
  | some b =>
    { p with
      capture := { p.capture with pool := p.capture.pool.release b }, held := p.held.eraseIdx i }
  | none => p

variable [CounterSource σ]

def step (p : Pipeline σ) : PipelineEvent σ → Pipeline σ
  | .overflow core => { p with capture := (p.capture.overflow core).2 }
  | .start => { p with capture := p.capture.start }
  | .stop => { p with capture := p.capture.stop }
  | .flush => { p with capture := p.capture.flush.2 }
  | .apply knob raw => { p with capture := (p.capture.apply knob raw).2 }
  | .drain => p.drain
  | .release i => p.release i
  | .close => { p with capture := { p.capture with pool := p.capture.pool.close } }
  | .reopen => { p with capture := { p.capture with pool := p.capture.pool.reopen } }
  | .elapse source => { p with capture := { p.capture with source := source } }

def run (p : Pipeline σ) (events : List (PipelineEvent σ)) : Pipeline σ := events.foldl step p

end Pipeline

namespace Pipeline

variable {σ : Type}

/-- A buffer that is drained was the first of the completed ones and is on loan. -/
theorem drain_same (p : Pipeline σ) :
    p.drain.capture.active = p.capture.active ∧ p.drain.capture.control = p.capture.control ∧
      p.drain.drained ++ p.drain.capture.pool.full = p.drained ++ p.capture.pool.full ∧
      p.drain.capture.pool.shutdown = p.capture.pool.shutdown ∧
      p.drain.capture.pool.free = p.capture.pool.free ∧
      p.drain.capture.pool.full.length + p.drain.held.length =
        p.capture.pool.full.length + p.held.length := by
  unfold drain Pool.tryDrain
  cases hfull : p.capture.pool.full with
  | nil => simp [hfull]
  | cons b rest => simp; omega

/-- A buffer that is released was on loan and is free. -/
theorem release_same (p : Pipeline σ) (i : Nat) :
    (p.release i).capture.active = p.capture.active ∧
      (p.release i).capture.control = p.capture.control ∧
      (p.release i).drained = p.drained ∧
      (p.release i).capture.pool.full = p.capture.pool.full ∧
      (p.release i).capture.pool.shutdown = p.capture.pool.shutdown ∧
      (p.release i).capture.pool.free.length + (p.release i).held.length =
        p.capture.pool.free.length + p.held.length := by
  unfold release
  cases hheld : p.held[i]? with
  | none => simp
  | some b =>
    obtain ⟨hi, -⟩ := List.getElem?_eq_some_iff.1 hheld
    simp [Pool.release, List.length_eraseIdx_of_lt hi]
    omega

end Pipeline

/-! ## Slots -/

/-- A list around one of its places. -/
theorem exists_around {α : Type} {l : List α} {i : Nat} {a : α} (h : l[i]? = some a) :
    ∃ before after, l = before ++ a :: after ∧ before.length = i ∧
      ∀ b, l.set i b = before ++ b :: after := by
  obtain ⟨hi, rfl⟩ := List.getElem?_eq_some_iff.1 h
  refine ⟨l.take i, l.drop (i + 1), ?_, ?_, fun b => ?_⟩
  · rw [← List.drop_eq_getElem_cons hi, List.take_append_drop]
  · rw [List.length_take]
    omega
  · rw [List.set_eq_take_append_cons_drop, if_pos hi]

/-- Buffers that are published one after the other are queued in that order. -/
theorem Pool.foldl_publish (bs : List Buffer) (pool : Pool) :
    bs.foldl Pool.publish pool = { pool with full := pool.full ++ bs } := by
  induction bs generalizing pool with
  | nil => simp
  | cons b bs ih => simp [ih, Pool.publish]

/-- After a place is written, it holds what was written, and every other place what it held. -/
theorem getElem?_set_cases {α : Type} {l : List α} {i j : Nat} {a b : α}
    (h : (l.set i a)[j]? = some b) : j = i ∧ b = a ∨ j ≠ i ∧ l[j]? = some b := by
  rw [List.getElem?_set] at h
  split at h
  · next hij =>
    split at h
    · exact .inl ⟨hij.symm, (Option.some.inj h).symm⟩
    · cases h
  · next hij => exact .inr ⟨Ne.symm hij, h⟩

/-- What one place of a list gives is exchanged when the place is written. -/
theorem flatMap_set_perm {α β : Type} {l : List α} {i : Nat} {a : α} (h : l[i]? = some a)
    (f : α → List β) (a' : α) :
    ((l.set i a').flatMap f ++ f a).Perm (l.flatMap f ++ f a') := by
  obtain ⟨before, after, rfl, -, hset⟩ := exists_around h
  rw [hset]
  simp only [List.flatMap_append, List.flatMap_cons, List.append_assoc]
  refine List.Perm.append_left _ ?_
  calc List.Perm (f a' ++ (after.flatMap f ++ f a)) (after.flatMap f ++ f a ++ f a') :=
        List.perm_append_comm
    List.Perm _ (f a ++ after.flatMap f ++ f a') := List.perm_append_comm.append_right _
    List.Perm _ (f a ++ (after.flatMap f ++ f a')) := .of_eq (List.append_assoc ..)

/-- The buffer of one slot is exchanged when the slot is written. -/
theorem filterMap_set_perm {slots : List (Option Buffer)} {i : Nat} {slot : Option Buffer}
    (h : slots[i]? = some slot) (slot' : Option Buffer) :
    ((slots.set i slot').filterMap id ++ slot.toList).Perm
      (slots.filterMap id ++ slot'.toList) := by
  rw [List.filterMap_eq_flatMap_toList, List.filterMap_eq_flatMap_toList]
  exact flatMap_set_perm h Option.toList slot'

namespace Capture

variable {σ : Type}

/-- The active buffers, in the order of the cores. -/
def activeBuffers (c : Capture σ) : List Buffer := c.active.filterMap id

/-- The buffer that takes the next sample of a core, and the pool without it: the active buffer, or
else the oldest free one. -/
def bufferFor (c : Capture σ) (core : UInt32) : Option (Buffer × Pool) :=
  match c.active[core.toNat]? with
  | none => none
  | some (some b) => some (b, c.pool)
  | some none =>
    match c.pool.free with
    | [] => none
    | b :: rest => some (b.reset core, { c.pool with free := rest })

theorem mem_activeBuffers {c : Capture σ} {b : Buffer} :
    b ∈ c.activeBuffers ↔ ∃ i : Nat, c.active[i]? = some (some b) := by
  rw [← List.mem_iff_getElem?]
  simp [activeBuffers]

/-- The buffer for a sample is an active one, or has nothing in it yet. -/
theorem mem_or_eq_nil_of_bufferFor {c : Capture σ} {core : UInt32} {b : Buffer} {pool : Pool}
    (hb : c.bufferFor core = some (b, pool)) : b ∈ c.activeBuffers ∨ b.samples = [] := by
  unfold bufferFor at hb
  split at hb
  · cases hb
  · next hslot =>
    obtain ⟨rfl, rfl⟩ := Prod.mk.injEq .. ▸ Option.some.inj hb
    exact .inl (mem_activeBuffers.2 ⟨_, hslot⟩)
  · split at hb
    · cases hb
    · obtain ⟨rfl, rfl⟩ := Prod.mk.injEq .. ▸ Option.some.inj hb
      exact .inr (Buffer.samples_reset ..)

/-! ## Overflows -/

section
variable [CounterSource σ]

/-- The sample that an overflow of a core reads. -/
def sampleFor (c : Capture σ) (core : UInt32) : Sample :=
  (snapshot core c.control.activePeriod c.source).1

/-- The counters when the sample has been read and the core is armed again. -/
def sourceAfter (c : Capture σ) (core : UInt32) : σ :=
  CounterSource.rearm (snapshot core c.control.activePeriod c.source).2 core c.control.activePeriod

/-- Whether an overflow is looked at. -/
def Listens (c : Capture σ) : Prop := c.control.isRunning = true ∧ c.pool.shutdown = false

/-- All that an overflow can do. -/
inductive Overflowed (c : Capture σ) (core : UInt32) : Overflow → Capture σ → Prop where
  | ignored :
    Overflowed c core .ignored { c with control := c.control.recordOverflow }
  | missed (hlistens : c.Listens) (hslot : c.active[core.toNat]? = some none)
    (hfree : c.pool.free = []) :
    Overflowed c core .missed
      { c with
        control := c.control.recordOverflow.recordMissed
        source := CounterSource.rearm c.source core c.control.activePeriod }
  | recorded {b : Buffer} {pool : Pool} (hlistens : c.Listens)
    (hb : c.bufferFor core = some (b, pool)) (hroom : (b.push (c.sampleFor core)).isFull = false) :
    Overflowed c core .recorded
      { pool := pool, control := c.control.recordOverflow, source := c.sourceAfter core
        active := c.active.set core.toNat (some (b.push (c.sampleFor core))) }
  | published {b : Buffer} {pool : Pool} (hlistens : c.Listens)
    (hb : c.bufferFor core = some (b, pool)) (hfull : (b.push (c.sampleFor core)).isFull = true) :
    Overflowed c core .published
      { pool := pool.publish (b.push (c.sampleFor core)), control := c.control.recordOverflow
        source := c.sourceAfter core, active := c.active.set core.toNat none }

theorem overflow_of_bufferFor {c : Capture σ} {core : UInt32} {b : Buffer} {pool : Pool}
    (hlistens : c.Listens) (hb : c.bufferFor core = some (b, pool)) :
    c.overflow core =
      { c with control := c.control.recordOverflow, pool := pool }.record core b := by
  obtain ⟨hrunning, hopen⟩ := hlistens
  have hrunning' : c.control.recordOverflow.isRunning = true := hrunning
  unfold bufferFor at hb
  split at hb
  · cases hb
  · next hslot =>
    obtain ⟨rfl, rfl⟩ := Prod.mk.injEq .. ▸ Option.some.inj hb
    simp only [overflow, hrunning', hopen, hslot, Bool.not_true, Bool.or_self, Bool.false_eq_true,
      if_false]
  · next hslot =>
    split at hb
    · cases hb
    · next hfree =>
      obtain ⟨rfl, rfl⟩ := Prod.mk.injEq .. ▸ Option.some.inj hb
      simp only [overflow, hrunning', hopen, hslot, Pool.acquire, hfree, Bool.not_true,
        Bool.or_self, Bool.false_eq_true, if_false]

theorem overflow_cases (c : Capture σ) (core : UInt32) :
    c.Overflowed core (c.overflow core).1 (c.overflow core).2 := by
  have hsame : c.control.recordOverflow.isRunning = c.control.isRunning := rfl
  by_cases hlistens : c.Listens
  · obtain ⟨hrunning, hopen⟩ := id hlistens
    cases hb : c.bufferFor core with
    | some r =>
      obtain ⟨b, pool⟩ := r
      rw [overflow_of_bufferFor hlistens hb]
      unfold record
      cases hfull : (b.push (c.sampleFor core)).isFull with
      | false =>
        have h : (b.push (snapshot core c.control.recordOverflow.activePeriod c.source).1).isFull =
          false := hfull
        simp only [h, Bool.false_eq_true, if_false]
        exact .recorded hlistens hb hfull
      | true =>
        have h : (b.push (snapshot core c.control.recordOverflow.activePeriod c.source).1).isFull =
          true := hfull
        simp only [h, if_true]
        exact .published hlistens hb hfull
    | none =>
      unfold bufferFor at hb
      split at hb
      · next hslot =>
        simp only [overflow, hsame, hrunning, hopen, hslot, Bool.not_true, Bool.or_self,
          Bool.false_eq_true, if_false]
        exact .ignored
      · cases hb
      · next hslot =>
        split at hb
        · next hfree =>
          simp only [overflow, hsame, hrunning, hopen, hslot, Pool.acquire, hfree, miss,
            Bool.not_true, Bool.or_self, Bool.false_eq_true, if_false]
          exact .missed hlistens hslot hfree
        · cases hb
  · have hdeaf : (!c.control.isRunning || c.pool.shutdown) = true := by
      rw [Listens] at hlistens
      cases hrunning : c.control.isRunning <;> cases hopen : c.pool.shutdown <;> simp_all
    simp only [overflow, hsame, hdeaf, if_true]
    exact .ignored

/-- An overflow takes its sample only if the capture listens and there is a buffer for it. -/
theorem of_overflow_takes {c : Capture σ} {core : UInt32}
    (h : (c.overflow core).1 = .recorded ∨ (c.overflow core).1 = .published) :
    c.Listens ∧ ∃ b pool, c.bufferFor core = some (b, pool) := by
  have hcases := c.overflow_cases core
  generalize (c.overflow core).1 = outcome at hcases h
  generalize (c.overflow core).2 = c' at hcases
  cases hcases with
  | ignored => simp at h
  | missed => simp at h
  | recorded hlistens hb => exact ⟨hlistens, _, _, hb⟩
  | published hlistens hb => exact ⟨hlistens, _, _, hb⟩

/-- A sample is missed only while the pool is open, for want of an active and of a free buffer. -/
theorem of_overflow_missed {c : Capture σ} {core : UInt32} (h : (c.overflow core).1 = .missed) :
    c.active[core.toNat]? = some none ∧ c.pool.free = [] ∧ c.pool.shutdown = false := by
  have hcases := c.overflow_cases core
  generalize (c.overflow core).1 = outcome at hcases h
  generalize (c.overflow core).2 = c' at hcases
  cases hcases with
  | missed hlistens hslot hfree => exact ⟨hslot, hfree, hlistens.2⟩
  | ignored => cases h
  | recorded => cases h
  | published => cases h

end

/-! ## Starts, stops and flushes -/

/-- A flush publishes the active buffers one after the other if all of them hold samples. -/
theorem pool_flush {c : Capture σ} (hc : ∀ b ∈ c.activeBuffers, b.isEmpty = false) :
    c.flush.2.pool = c.activeBuffers.foldl Pool.publish c.pool := by
  have hfold : ∀ bs : List Buffer, (∀ b ∈ bs, b.isEmpty = false) → ∀ pool,
      bs.foldl flushBuffer pool = bs.foldl Pool.publish pool := by
    intro bs hbs
    induction bs with
    | nil => exact fun _ => rfl
    | cons b bs ih =>
      obtain ⟨hb, hbs⟩ := List.forall_mem_cons.1 hbs
      intro pool
      rw [List.foldl_cons, List.foldl_cons, flushBuffer, hb]
      exact ih hbs _
  exact hfold c.activeBuffers hc c.pool

theorem pool_flush_eq {c : Capture σ} (hc : ∀ b ∈ c.activeBuffers, b.isEmpty = false) :
    c.flush.2.pool = { c.pool with full := c.pool.full ++ c.activeBuffers } := by
  rw [pool_flush hc, Pool.foldl_publish]

/-- Discarding gives the active buffers back, cleared, in the order of the cores. -/
theorem pool_discardActive (c : Capture σ) :
    c.discardActive.pool =
      { c.pool with free := c.pool.free ++ c.activeBuffers.map (·.reset 0) } := by
  have hfold : ∀ (slots : List (Option Buffer)) (pool : Pool),
      slots.foldl (fun p slot => slot.elim p p.release) pool =
        { pool with free := pool.free ++ (slots.filterMap id).map (·.reset 0) } := by
    intro slots
    induction slots with
    | nil => simp
    | cons slot slots ih =>
      intro pool
      cases slot with
      | none => simpa using ih pool
      | some b => simp [ih, Pool.release]
  exact hfold c.active c.pool

theorem activeBuffers_discardActive (c : Capture σ) : c.discardActive.activeBuffers = [] := by
  simp [discardActive, activeBuffers]

theorem activeBuffers_flush (c : Capture σ) : c.flush.2.activeBuffers = [] := by
  simp [flush, activeBuffers]

end Capture

/-! ## Knobs -/

/-- A knob that is written leaves the run alone, and the count of missed samples unless it is that
which is written.  A status that is written changes nothing. -/
theorem Control.write_ok {c c' : Control} {knob : Knob} {raw : String}
    {request : Option StatusRequest} (h : c.write knob raw = .ok (request, c')) :
    c'.status = c.status ∧ c'.activePeriod = c.activePeriod ∧ c'.overflows = c.overflows ∧
      (knob ≠ .missed → c'.missed = c.missed) ∧ (request ≠ none → c' = c) := by
  rcases c.write_outcomes knob raw with
    ⟨_, -, hwrite⟩ | ⟨hknob, _, _, -, hset, hwrite⟩ | ⟨_, -, hwrite⟩
  · cases hwrite.symm.trans h
  · obtain ⟨rfl, rfl⟩ := Prod.mk.injEq .. ▸ Except.ok.inj (hwrite.symm.trans h)
    exact ⟨hset.status hknob, hset.activePeriod, hset.overflows,
      fun hne => hset.others .missed hne.symm, fun hne => absurd rfl hne⟩
  · obtain ⟨rfl, rfl⟩ := Prod.mk.injEq .. ▸ Except.ok.inj (hwrite.symm.trans h)
    exact ⟨rfl, rfl, rfl, fun _ => rfl, fun _ => rfl⟩

namespace PipelineEvent

variable {σ : Type}

/-- What an event asks of the status. -/
def request? (control : Control) : PipelineEvent σ → Option StatusRequest
  | .start => some .start
  | .stop => some .stop
  | .apply knob raw =>
    match control.write knob raw with
    | .ok (request, _) => request
    | .error _ => none
  | _ => none

/-- Whether an event writes the count of missed samples. -/
def WritesMissed : PipelineEvent σ → Prop
  | .apply .missed raw => ∃ v, parseValue raw = .ok v
  | _ => False

end PipelineEvent

namespace Capture

variable {σ : Type} [CounterSource σ]

/-- Applying a knob starts the capture or stops it, if that is what is asked for, and otherwise
changes other knobs at most. -/
theorem apply_cases (c : Capture σ) (knob : Knob) (raw : String) :
    let event : PipelineEvent σ := .apply knob raw
    (event.request? c.control = some .start ∧ (c.apply knob raw).2 = c.start) ∨
      (event.request? c.control = some .stop ∧ (c.apply knob raw).2 = c.stop) ∨
      (event.request? c.control ≠ some .start ∧ event.request? c.control ≠ some .stop ∧
        ∃ control, (c.apply knob raw).2 = { c with control := control } ∧
          control.status = c.control.status ∧ control.overflows = c.control.overflows ∧
          (¬ event.WritesMissed → control.missed = c.control.missed)) := by
  intro event
  rcases c.control.write_outcomes knob raw with
    ⟨e, -, hwrite⟩ | ⟨hknob, v, control, hraw, hset, hwrite⟩ | ⟨request, -, hwrite⟩
  · have hevent : event.request? c.control = none := by
      simp only [event, PipelineEvent.request?, hwrite]
    rw [hevent]
    refine .inr (.inr ⟨nofun, nofun, c.control, ?_, rfl, rfl, fun _ => rfl⟩)
    simp only [apply, hwrite]
  · have hevent : event.request? c.control = none := by
      simp only [event, PipelineEvent.request?, hwrite]
    rw [hevent]
    refine .inr (.inr ⟨nofun, nofun, control, ?_, hset.status hknob, hset.overflows, ?_⟩)
    · simp only [apply, hwrite]
    · intro hnot
      refine hset.others .missed fun hmissed => hnot ?_
      subst hmissed
      exact ⟨v, hraw⟩
  · have hevent : event.request? c.control = some request := by
      simp only [event, PipelineEvent.request?, hwrite]
    rw [hevent]
    cases request with
    | start => exact .inl ⟨rfl, by simp only [apply, hwrite]⟩
    | stop => exact .inr (.inl ⟨rfl, by simp only [apply, hwrite]⟩)
    | dump =>
      refine .inr (.inr ⟨nofun, nofun, c.control, ?_, rfl, rfl, fun _ => rfl⟩)
      simp only [apply, hwrite]

end Capture

end CounterTrace
