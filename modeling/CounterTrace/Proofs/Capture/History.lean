import CounterTrace.Proofs.Capture.Conservation

/-!
# The history of a capture

A chronicle goes with a pipeline and writes down which buffers are published and, for each core,
which samples are kept.  A sample is kept from the overflow that takes it on, unless it is still in
the active buffer of its core when the capture is started: a start throws that buffer away.

* Buffers are drained in the order in which they are published, each once.
* The published buffers of a core, followed by its active one, hold exactly the samples kept of the
  core, in the order in which the overflows took them.

    (h.run es).now = h.now.run es                                             (Chronicle.run_now)
    h.Complete n → (h.step e).Complete n                                          (Complete.step)
    the chronicle of any run of any pipeline accounts for every sample         (run_accounts)
-/

namespace CounterTrace

/-! ## What is written down -/

/-- The samples in the buffers of a core, in the order of the buffers. -/
def coreSamples (core : UInt32) (bs : List Buffer) : List Sample :=
  (bs.filter fun b => b.core = core).flatMap Buffer.samples

/-- The samples in the active buffer of a core. -/
def Capture.slotSamples {σ : Type} (c : Capture σ) (core : UInt32) : List Sample :=
  match c.active[core.toNat]? with
  | some (some b) => b.samples
  | _ => []

/-- Whether an event publishes the active buffers. -/
def PipelineEvent.flushes {σ : Type} (control : Control) : PipelineEvent σ → Bool
  | .flush => true
  | e => e.request? control == some .stop

namespace Pipeline

variable {σ : Type} [CounterSource σ]

def outcome? (p : Pipeline σ) : PipelineEvent σ → Option Overflow
  | .overflow core => some (p.capture.overflow core).1
  | _ => none

def outcomes (p : Pipeline σ) : List (PipelineEvent σ) → List Overflow
  | [] => []
  | e :: es => (p.outcome? e).toList ++ (p.step e).outcomes es

/-- The buffers that an event publishes: the one that its sample fills, or the active ones. -/
def publishedBy (p : Pipeline σ) : PipelineEvent σ → List Buffer
  | .overflow core =>
    if (p.capture.overflow core).1 = .published then
      (p.capture.bufferFor core).toList.map fun found => found.1.push (p.capture.sampleFor core)
    else []
  | e =>
    if e.flushes p.capture.control then p.capture.activeBuffers.filter fun b => !b.isEmpty
    else []

/-- The samples of a core that are kept after an event, from those that were kept before. -/
def keptAfter (p : Pipeline σ) (e : PipelineEvent σ) (core : UInt32) (kept : List Sample) :
    List Sample :=
  match e with
  | .overflow core' =>
    if core' = core ∧ ((p.capture.overflow core').1 = .recorded ∨
        (p.capture.overflow core').1 = .published) then
      kept ++ [p.capture.sampleFor core']
    else kept
  | e =>
    if e.request? p.capture.control = some .start then
      kept.take (kept.length - (p.capture.slotSamples core).length)
    else kept

end Pipeline

/-- A pipeline with what was written down about it. -/
structure Chronicle (σ : Type) where
  now : Pipeline σ
  /-- All buffers that were ever published, the earliest first. -/
  published : List Buffer := []
  /-- For each core the samples that are kept, the earliest first. -/
  kept : UInt32 → List Sample := fun _ => []

namespace Chronicle

variable {σ : Type} [CounterSource σ]

def step (h : Chronicle σ) (e : PipelineEvent σ) : Chronicle σ where
  now := h.now.step e
  published := h.published ++ h.now.publishedBy e
  kept core := h.now.keptAfter e core (h.kept core)

def run (h : Chronicle σ) (events : List (PipelineEvent σ)) : Chronicle σ := events.foldl step h

theorem run_now (h : Chronicle σ) (events : List (PipelineEvent σ)) :
    (h.run events).now = h.now.run events := by
  induction events generalizing h with
  | nil => rfl
  | cons e events ih => exact ih (h.step e)

end Chronicle

/-! ## Samples by core -/

theorem coreSamples_append (core : UInt32) (bs bs' : List Buffer) :
    coreSamples core (bs ++ bs') = coreSamples core bs ++ coreSamples core bs' := by
  simp [coreSamples]

theorem coreSamples_singleton_self (b : Buffer) : coreSamples b.core [b] = b.samples := by
  simp [coreSamples]

/-- Slots with buffers of other cores have no samples of a core. -/
theorem coreSamples_slots_eq_nil {core : UInt32} {slots : List (Option Buffer)}
    (h : ∀ (i : Nat) (b : Buffer), slots[i]? = some (some b) → b.core ≠ core) :
    coreSamples core (slots.filterMap id) = [] := by
  have hfilter : ((slots.filterMap id).filter fun b => b.core = core) = [] := by
    rw [List.filter_eq_nil_iff]
    intro b hb
    obtain ⟨_, hslot, rfl⟩ := List.mem_filterMap.1 hb
    obtain ⟨i, hi⟩ := List.mem_iff_getElem?.1 hslot
    rw [decide_eq_true_eq]
    exact h i b hi
  rw [coreSamples, hfilter, List.flatMap_nil]

namespace Capture

variable {σ : Type} {c c' : Capture σ} {core : UInt32}

theorem slotSamples_of_activeBuffers (h : c.activeBuffers = []) : c.slotSamples core = [] := by
  unfold slotSamples
  split
  · next b hb =>
    have hmem : b ∈ c.activeBuffers := mem_activeBuffers.2 ⟨_, hb⟩
    rw [h] at hmem
    cases hmem
  · rfl

/-- Only the slot that is written changes its samples. -/
theorem slotSamples_set {slot slot' : Option Buffer} (hslot : c.active[core.toNat]? = some slot)
    (hactive : c'.active = c.active.set core.toNat slot') (core' : UInt32) :
    c'.slotSamples core' =
      if core = core' then (slot'.map Buffer.samples).getD [] else c.slotSamples core' := by
  obtain ⟨hlt, -⟩ := List.getElem?_eq_some_iff.1 hslot
  unfold slotSamples
  rw [hactive]
  by_cases hcore : core = core'
  · subst hcore
    rw [List.getElem?_set_self hlt, if_pos rfl]
    cases slot' <;> rfl
  · have hne : core.toNat ≠ core'.toNat := fun heq => hcore (UInt32.toNat_inj.1 heq)
    rw [List.getElem?_set_ne hne, if_neg hcore]

/-- The buffer for the next sample holds the samples of the slot. -/
theorem samples_of_bufferFor {b : Buffer} {pool : Pool} (hb : c.bufferFor core = some (b, pool)) :
    b.samples = c.slotSamples core ∧ ∃ slot, c.active[core.toNat]? = some slot := by
  unfold bufferFor at hb
  unfold slotSamples
  split at hb
  · cases hb
  · next hslot =>
    obtain ⟨rfl, rfl⟩ := Prod.mk.injEq .. ▸ Option.some.inj hb
    rw [hslot]
    exact ⟨rfl, _, rfl⟩
  · next hslot =>
    split at hb
    · cases hb
    · next b' rest hfree =>
      obtain ⟨rfl, rfl⟩ := Prod.mk.injEq .. ▸ Option.some.inj hb
      rw [hslot]
      exact ⟨b'.samples_reset core, _, rfl⟩

end Capture

namespace Pipeline

/-- No other active buffer is of the core than the one in its slot. -/
theorem Balanced.coreSamples_activeBuffers {σ : Type} {capacity : Nat} {p : Pipeline σ}
    (hp : p.Balanced capacity) (core : UInt32) :
    coreSamples core p.capture.activeBuffers = p.capture.slotSamples core := by
  have hother : ∀ (i : Nat) (b : Buffer), p.capture.active[i]? = some (some b) →
      i ≠ core.toNat → b.core ≠ core := by
    rintro i b hi hne rfl
    exact hne (hp.active i b hi).core.symm
  unfold Capture.slotSamples
  split
  · next b hb =>
    obtain ⟨before, after, hsplit, hlength, -⟩ := exists_around hb
    have hbefore : coreSamples core (before.filterMap id) = [] := by
      refine coreSamples_slots_eq_nil fun i b' hi => ?_
      obtain ⟨hlt, -⟩ := List.getElem?_eq_some_iff.1 hi
      refine hother i b' ?_ (by omega)
      rw [hsplit, List.getElem?_append_left hlt]
      exact hi
    have hafter : coreSamples core (after.filterMap id) = [] := by
      refine coreSamples_slots_eq_nil fun i b' hi => ?_
      refine hother (before.length + (i + 1)) b' ?_ (by omega)
      rw [hsplit, List.getElem?_append_right (by omega), Nat.add_sub_cancel_left,
        List.getElem?_cons_succ]
      exact hi
    have hcore : b.core = core := UInt32.toNat_inj.1 (hp.active _ b hb).core
    have hactive : p.capture.activeBuffers =
        before.filterMap id ++ ([b] ++ after.filterMap id) := by
      rw [Capture.activeBuffers, hsplit]
      simp
    rw [hactive, coreSamples_append, coreSamples_append, hbefore, hafter, ← hcore,
      coreSamples_singleton_self, List.nil_append, List.append_nil]
  · next hnone =>
    refine coreSamples_slots_eq_nil fun i b hi => hother i b hi fun heq => ?_
    subst heq
    exact hnone b hi

end Pipeline

/-! ## The chronicle is complete -/

/-- What a chronicle says agrees with where the buffers and samples of its pipeline are. -/
structure Chronicle.Complete {σ : Type} (capacity : Nat) (h : Chronicle σ) : Prop where
  balanced : h.now.Balanced capacity
  queue : h.now.drained ++ h.now.capture.pool.full = h.published
  samples : ∀ core, coreSamples core h.published ++ h.now.capture.slotSamples core = h.kept core
  quiet : h.now.capture.control.isRunning = false → h.now.capture.activeBuffers = []

namespace Chronicle.Complete

variable {σ : Type} {capacity : Nat} {h : Chronicle σ}

theorem new (capacity cores : Nat) (control : Control) (source : σ) :
    Complete capacity { now := .new capacity cores control source } where
  balanced := .new capacity cores control source
  queue := rfl
  samples core := by
    refine Capture.slotSamples_of_activeBuffers ?_
    simp [Pipeline.new, Capture.new, Capture.activeBuffers]
  quiet _ := by simp [Pipeline.new, Capture.new, Capture.activeBuffers]

variable [CounterSource σ]

section
variable (hh : h.Complete capacity)
include hh

omit [CounterSource σ] in
/-- What changes neither a slot nor the status nor what was published needs no entry. -/
theorem of_same {h' : Chronicle σ} (hbalanced : h'.now.Balanced capacity)
    (hqueue : h'.now.drained ++ h'.now.capture.pool.full =
      h.now.drained ++ h.now.capture.pool.full)
    (hactive : h'.now.capture.active = h.now.capture.active)
    (hstatus : h'.now.capture.control.status = h.now.capture.control.status)
    (hpublished : h'.published = h.published) (hkept : h'.kept = h.kept) :
    h'.Complete capacity where
  balanced := hbalanced
  queue := by rw [hqueue, hh.queue, hpublished]
  samples core := by
    have hslot : h'.now.capture.slotSamples core = h.now.capture.slotSamples core := by
      unfold Capture.slotSamples
      rw [hactive]
    rw [hpublished, hslot, hh.samples, hkept]
  quiet hstopped := by
    unfold Capture.activeBuffers
    rw [hactive]
    refine hh.quiet ?_
    unfold Control.isRunning at hstopped ⊢
    rw [← hstatus]
    exact hstopped

theorem overflow (core : UInt32) : (h.step (.overflow core)).Complete capacity := by
  have hbalanced := hh.balanced.overflow core
  have hcases := h.now.capture.overflow_cases core
  simp only [step, Pipeline.step, Pipeline.publishedBy, Pipeline.keptAfter] at hbalanced ⊢
  generalize (h.now.capture.overflow core).1 = outcome at hcases ⊢
  generalize (h.now.capture.overflow core).2 = c' at hcases hbalanced ⊢
  cases hcases with
  | ignored => exact hh.of_same hbalanced rfl rfl rfl (by simp) (by simp)
  | missed => exact hh.of_same hbalanced rfl rfl rfl (by simp) (by simp)
  | @recorded b pool hlistens hb hroom =>
    obtain ⟨-, hlt, ⟨free, rfl, -⟩, -⟩ := hh.balanced.bufferFor hb
    obtain ⟨hslot, slot, hget⟩ := Capture.samples_of_bufferFor hb
    have hpush := Buffer.samples_push (Buffer.isFull_eq_false_iff.2 hlt)
      (h.now.capture.sampleFor core)
    refine ⟨hbalanced, by simpa using hh.queue, fun core' => ?_, fun hstopped => ?_⟩
    · rw [Capture.slotSamples_set hget rfl]
      by_cases hcore : core = core'
      · subst hcore
        simp [hpush, hslot, ← hh.samples]
      · simp [hcore, hh.samples]
    · exact absurd (hlistens.1.symm.trans hstopped) (by decide)
  | @published b pool hlistens hb hfull =>
    obtain ⟨hof, hlt, ⟨free, rfl, -⟩, -⟩ := hh.balanced.bufferFor hb
    obtain ⟨hslot, slot, hget⟩ := Capture.samples_of_bufferFor hb
    have hpush := Buffer.samples_push (Buffer.isFull_eq_false_iff.2 hlt)
      (h.now.capture.sampleFor core)
    refine ⟨hbalanced, ?_, fun core' => ?_, fun hstopped => ?_⟩
    · simp [hb, Pool.publish, ← hh.queue]
    · rw [Capture.slotSamples_set hget rfl]
      by_cases hcore : core = core'
      · subst hcore
        simp [hb, coreSamples, hof, hpush, hslot, ← hh.samples]
      · simp [hb, coreSamples, hof, hcore, ← hh.samples]
    · exact absurd (hlistens.1.symm.trans hstopped) (by decide)

/-- A start keeps what is published and forgets what is active. -/
theorem started {h' : Chronicle σ}
    (hnow : h'.now = { h.now with capture := h.now.capture.start })
    (hpublished : h'.published = h.published)
    (hkept : ∀ core, h'.kept core =
      (h.kept core).take ((h.kept core).length - (h.now.capture.slotSamples core).length)) :
    h'.Complete capacity where
  balanced := hnow ▸ hh.balanced.start
  queue := by
    rw [hnow, hpublished, ← hh.queue]
    simp only [Capture.start, Capture.pool_discardActive, Pool.reopen]
  samples core := by
    have hslot : h'.now.capture.slotSamples core = [] := by
      refine Capture.slotSamples_of_activeBuffers ?_
      rw [hnow]
      exact h.now.capture.activeBuffers_discardActive
    rw [hslot, hpublished, hkept, ← hh.samples]
    simp
  quiet hstopped := by
    rw [hnow] at hstopped
    cases hstopped

omit [CounterSource σ] in
/-- A flush publishes all that is active. -/
theorem flushed {h' : Chronicle σ} (hbalanced : h'.now.Balanced capacity)
    (hdrained : h'.now.drained = h.now.drained)
    (hfull : h'.now.capture.pool.full = h.now.capture.pool.full ++ h.now.capture.activeBuffers)
    (hactive : h'.now.capture.activeBuffers = [])
    (hpublished : h'.published = h.published ++ h.now.capture.activeBuffers.filter (!·.isEmpty))
    (hkept : h'.kept = h.kept) : h'.Complete capacity := by
  have hall : h.now.capture.activeBuffers.filter (!·.isEmpty) = h.now.capture.activeBuffers := by
    refine List.filter_eq_self.2 fun b hb => ?_
    rw [hh.balanced.activeBuffers_isEmpty b hb]
    rfl
  rw [hall] at hpublished
  refine ⟨hbalanced, ?_, fun core => ?_, fun _ => hactive⟩
  · rw [hdrained, hfull, hpublished, ← hh.queue, List.append_assoc]
  · rw [Capture.slotSamples_of_activeBuffers hactive, hpublished, coreSamples_append,
      hh.balanced.coreSamples_activeBuffers, hh.samples, List.append_nil, hkept]

/-- An event leaves a chronicle that agrees with its pipeline. -/
theorem step (e : PipelineEvent σ) : (h.step e).Complete capacity := by
  have hbalanced : (h.step e).now.Balanced capacity := hh.balanced.step e
  have hflush : h.now.capture.flush.2.pool.full =
      h.now.capture.pool.full ++ h.now.capture.activeBuffers := by
    rw [Capture.pool_flush_eq hh.balanced.activeBuffers_isEmpty]
  have hempty := h.now.capture.activeBuffers_flush
  cases e with
  | overflow core => exact hh.overflow core
  | start => exact hh.started rfl (List.append_nil _) fun _ => rfl
  | stop => exact hh.flushed hbalanced rfl hflush hempty rfl rfl
  | flush => exact hh.flushed hbalanced rfl hflush hempty rfl rfl
  | apply knob raw =>
    -- a knob does what its request asks for, and is written down like that
    rcases h.now.capture.apply_cases knob raw with
      ⟨hrequest, happly⟩ | ⟨hrequest, happly⟩ | ⟨hstart, hstop, control, happly, hstatus, -⟩
    · refine hh.started ?_ ?_ fun core => ?_
      · simp only [Chronicle.step, Pipeline.step, happly]
      · simp [Chronicle.step, Pipeline.publishedBy, PipelineEvent.flushes, hrequest]
      · simp only [Chronicle.step, Pipeline.keptAfter, hrequest, if_true]
    · refine hh.flushed hbalanced rfl ?_ ?_ ?_ ?_
      · simp only [Chronicle.step, Pipeline.step, happly]
        exact hflush
      · simp only [Chronicle.step, Pipeline.step, happly]
        exact hempty
      · simp [Chronicle.step, Pipeline.publishedBy, PipelineEvent.flushes, hrequest]
      · simp [Chronicle.step, Pipeline.keptAfter, hrequest]
    · refine hh.of_same hbalanced ?_ ?_ ?_ ?_ ?_
      · simp only [Chronicle.step, Pipeline.step, happly]
      · simp only [Chronicle.step, Pipeline.step, happly]
      · simpa only [Chronicle.step, Pipeline.step, happly] using hstatus
      · simp [Chronicle.step, Pipeline.publishedBy, PipelineEvent.flushes, hstop]
      · simp only [Chronicle.step, Pipeline.keptAfter, hstart, if_false]
  | drain =>
    obtain ⟨hactive, hcontrol, hqueue, -⟩ := h.now.drain_same
    exact hh.of_same hbalanced hqueue hactive (congrArg Control.status hcontrol)
      (List.append_nil _) rfl
  | release i =>
    obtain ⟨hactive, hcontrol, hdrained, hfull, -⟩ := h.now.release_same i
    exact hh.of_same hbalanced (congr (congrArg _ hdrained) hfull) hactive
      (congrArg Control.status hcontrol) (List.append_nil _) rfl
  | close => exact hh.of_same hbalanced rfl rfl rfl (List.append_nil _) rfl
  | reopen => exact hh.of_same hbalanced rfl rfl rfl (List.append_nil _) rfl
  | elapse source => exact hh.of_same hbalanced rfl rfl rfl (List.append_nil _) rfl

theorem run (events : List (PipelineEvent σ)) : (h.run events).Complete capacity := by
  induction events generalizing h with
  | nil => exact hh
  | cons e events ih => exact ih (hh.step e)

end

end Chronicle.Complete

/-! ## Counts -/

namespace Pipeline

variable {σ : Type} [CounterSource σ]

/-- An overflow is counted, and nothing else is.  A missed sample is counted, and nothing else is
unless the count itself is written. -/
theorem counts_step (p : Pipeline σ) (e : PipelineEvent σ) :
    (p.step e).capture.control.overflows =
        p.capture.control.overflows + UInt64.ofNat (p.outcome? e).toList.length ∧
      (¬ e.WritesMissed → (p.step e).capture.control.missed =
        p.capture.control.missed + UInt32.ofNat ((p.outcome? e).toList.count .missed)) := by
  cases e with
  | overflow core =>
    have hcases := p.capture.overflow_cases core
    simp only [step, outcome?]
    generalize (p.capture.overflow core).1 = outcome at hcases ⊢
    generalize (p.capture.overflow core).2 = c' at hcases ⊢
    cases hcases with
    | ignored => exact ⟨rfl, fun _ => (UInt32.add_zero _).symm⟩
    | missed => exact ⟨rfl, fun _ => rfl⟩
    | recorded => exact ⟨rfl, fun _ => (UInt32.add_zero _).symm⟩
    | published => exact ⟨rfl, fun _ => (UInt32.add_zero _).symm⟩
  | apply knob raw =>
    simp only [step]
    rcases p.capture.apply_cases knob raw with
      ⟨-, happly⟩ | ⟨-, happly⟩ | ⟨-, -, control, happly, -, hoverflows, hmissed⟩
    · rw [happly]
      exact ⟨(UInt64.add_zero _).symm, fun _ => (UInt32.add_zero _).symm⟩
    · rw [happly]
      exact ⟨(UInt64.add_zero _).symm, fun _ => (UInt32.add_zero _).symm⟩
    · rw [happly]
      refine ⟨hoverflows.trans (UInt64.add_zero _).symm, fun hnot => ?_⟩
      exact (hmissed hnot).trans (UInt32.add_zero _).symm
  | drain =>
    simp only [step, p.drain_same.2.1]
    exact ⟨(UInt64.add_zero _).symm, fun _ => (UInt32.add_zero _).symm⟩
  | release i =>
    simp only [step, (p.release_same i).2.1]
    exact ⟨(UInt64.add_zero _).symm, fun _ => (UInt32.add_zero _).symm⟩
  | start => exact ⟨(UInt64.add_zero _).symm, fun _ => (UInt32.add_zero _).symm⟩
  | stop => exact ⟨(UInt64.add_zero _).symm, fun _ => (UInt32.add_zero _).symm⟩
  | flush => exact ⟨(UInt64.add_zero _).symm, fun _ => (UInt32.add_zero _).symm⟩
  | close => exact ⟨(UInt64.add_zero _).symm, fun _ => (UInt32.add_zero _).symm⟩
  | reopen => exact ⟨(UInt64.add_zero _).symm, fun _ => (UInt32.add_zero _).symm⟩
  | elapse source => exact ⟨(UInt64.add_zero _).symm, fun _ => (UInt32.add_zero _).symm⟩

theorem overflows_run (p : Pipeline σ) (events : List (PipelineEvent σ)) :
    (p.run events).capture.control.overflows =
      p.capture.control.overflows + UInt64.ofNat (p.outcomes events).length := by
  induction events generalizing p with
  | nil => exact (UInt64.add_zero _).symm
  | cons e events ih =>
    have hstep := (p.counts_step e).1
    rw [outcomes, List.length_append, UInt64.ofNat_add, ← UInt64.add_assoc, ← hstep]
    exact ih (p.step e)

theorem missed_run (p : Pipeline σ) (events : List (PipelineEvent σ))
    (hevents : ∀ e ∈ events, ¬ e.WritesMissed) :
    (p.run events).capture.control.missed =
      p.capture.control.missed + UInt32.ofNat ((p.outcomes events).count .missed) := by
  induction events generalizing p with
  | nil => exact (UInt32.add_zero _).symm
  | cons e events ih =>
    obtain ⟨he, hevents⟩ := List.forall_mem_cons.1 hevents
    have hstep := (p.counts_step e).2 he
    rw [outcomes, List.count_append, UInt32.ofNat_add, ← UInt32.add_assoc, ← hstep]
    exact ih (p.step e) hevents

theorem run_append (p : Pipeline σ) (events more : List (PipelineEvent σ)) :
    p.run (events ++ more) = (p.run events).run more := List.foldl_append

/-- A stop leaves the status stopped, whichever way it is asked for. -/
theorem isRunning_of_stop (p : Pipeline σ) {e : PipelineEvent σ}
    (he : e.request? p.capture.control = some .stop) :
    (p.step e).capture.control.isRunning = false := by
  cases e with
  | stop => rfl
  | apply knob raw =>
    rcases p.capture.apply_cases knob raw with ⟨hstart, -⟩ | ⟨-, happly⟩ | ⟨-, hnot, -⟩
    · cases he.symm.trans hstart
    · simp only [step, happly]
      rfl
    · exact absurd he hnot
  | _ => cases he

/-- **Every sample is accounted for.**  After any run of any pipeline:

* the drained buffers and after them the completed ones are the published ones, in that order;
* those of a core, followed by its active buffer, hold the samples that were taken on the core and
  not thrown away by a start, in the order of the overflows;
* while the capture is stopped, which a stop makes it, the drained and the completed buffers hold
  all of them;
* every overflow is counted as such, and every missed sample as missed since the count was last
  written. -/
theorem run_accounts (capacity cores : Nat) (control : Control) (source : σ)
    (events : List (PipelineEvent σ)) :
    let start := new capacity cores control source
    let p := start.run events
    let h := Chronicle.run { now := start } events
    h.now = p ∧
      p.drained ++ p.capture.pool.full = h.published ∧
      (∀ core, coreSamples core (p.drained ++ p.capture.pool.full) ++ p.capture.slotSamples core =
        h.kept core) ∧
      (p.capture.control.isRunning = false → ∀ core,
        coreSamples core (p.drained ++ p.capture.pool.full) = h.kept core) ∧
      (∀ e : PipelineEvent σ, e.request? p.capture.control = some .stop →
        (p.step e).capture.control.isRunning = false) ∧
      p.capture.control.overflows =
        control.overflows + UInt64.ofNat (start.outcomes events).length ∧
      ∀ before after, events = before ++ after → (∀ e ∈ after, ¬ e.WritesMissed) →
        p.capture.control.missed = (start.run before).capture.control.missed +
          UInt32.ofNat (((start.run before).outcomes after).count .missed) := by
  intro start p h
  have hnow : h.now = p := Chronicle.run_now _ events
  have hh : h.Complete capacity := (Chronicle.Complete.new capacity cores control source).run events
  have hqueue := hh.queue
  have hsamples := hh.samples
  have hquiet := hh.quiet
  rw [hnow] at hqueue hsamples hquiet
  rw [← hqueue] at hsamples
  refine ⟨hnow, hqueue, hsamples, fun hstopped core => ?_, fun e => p.isRunning_of_stop,
    start.overflows_run events, ?_⟩
  · rw [← hsamples, Capture.slotSamples_of_activeBuffers (hquiet hstopped), List.append_nil]
  · intro before after hevents hnot
    have hrun : p = (start.run before).run after := by
      rw [← run_append, ← hevents]
    rw [hrun]
    exact (start.run before).missed_run after hnot

end Pipeline

end CounterTrace
