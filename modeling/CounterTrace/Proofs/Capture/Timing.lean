import CounterTrace.Proofs.Capture.Conservation
import CounterTrace.Proofs.Capture.Period
import CounterTrace.Proofs.Capture.Watching

/-!
# The period of a sample

A period is requested at any time and takes effect with the next start, raised to the smallest one.
A timeline goes with a pipeline and writes down the periods that were in effect, one for each start,
and every sample that was taken, with the run in which it was taken and what the cycle counter
showed.

    (p.after e).capture.control.activePeriod      the old one, or the requested one at a start
                                                                        (activePeriod_after)
    h.Sound n m → (h.step e).Sound n m            a buffer holds samples of one run   (Sound.step)

Hence the cycle counts in a buffer do not decrease if the clock does not go back
(`cycles_do_not_decrease`).
-/

namespace CounterTrace

/-! ## Events -/

/-- What can happen to a capture.  Besides what happens to a pipeline, a knob can be written past
the capture, which does not act on a status then. -/
inductive CaptureEvent (σ : Type) where
  | pipeline (e : PipelineEvent σ)
  | write (knob : Knob) (raw : String)

/-- Whether an event starts a run. -/
def CaptureEvent.Starts {σ : Type} (control : Control) : CaptureEvent σ → Prop
  | .pipeline e => e.request? control = some .start
  | .write _ _ => False

instance {σ : Type} (control : Control) (e : CaptureEvent σ) : Decidable (e.Starts control) :=
  match e with
  | .pipeline e => inferInstanceAs (Decidable (e.request? control = some .start))
  | .write _ _ => inferInstanceAs (Decidable False)

namespace Pipeline

variable {σ : Type}

/-- A knob is written past the capture. -/
def write (p : Pipeline σ) (knob : Knob) (raw : String) : Pipeline σ :=
  match p.capture.control.write knob raw with
  | .ok (_, control) => { p with capture := { p.capture with control := control } }
  | .error _ => p

/-- A knob that is written past the capture calls for nothing. -/
theorem write_watched (p : Pipeline σ) (knob : Knob) (raw : String) :
    (p.watched []).write knob raw = (p.write knob raw).watched [] := by
  have hcontrol : (p.watched []).capture.control = p.capture.control := rfl
  simp only [write, hcontrol]
  split <;> rfl

variable [CounterSource σ]

def after (p : Pipeline σ) : CaptureEvent σ → Pipeline σ
  | .pipeline e => p.step e
  | .write knob raw => p.write knob raw

/-! ## The period in effect -/

theorem activePeriod_apply (c : Capture σ) (knob : Knob) (raw : String) :
    (c.apply knob raw).2.control.activePeriod =
      if (PipelineEvent.apply (σ := σ) knob raw).request? c.control = some .start then
        Control.clampPeriod c.control.period
      else c.control.activePeriod := by
  cases hwrite : c.control.write knob raw with
  | error e => simp [Capture.apply, PipelineEvent.request?, hwrite]
  | ok written =>
    obtain ⟨request, control⟩ := written
    obtain ⟨-, hactive, -, -, hsame⟩ := Control.write_ok hwrite
    simp only [Capture.apply, PipelineEvent.request?, hwrite]
    cases request with
    | none => exact hactive
    | some request =>
      cases request with
      | start =>
        obtain rfl : control = c.control := hsame (by simp)
        rfl
      | stop => exact hactive
      | dump => exact hactive

/-- No event adds a core, and none changes the period in effect unless it is a start. -/
theorem after_keeps (p : Pipeline σ) (e : CaptureEvent σ) :
    (p.after e).capture.cores = p.capture.cores ∧
      (p.after e).capture.control.activePeriod =
        if e.Starts p.capture.control then Control.clampPeriod p.capture.control.period
        else p.capture.control.activePeriod := by
  have hstart : p.capture.start.cores = p.capture.cores := by
    simp [Capture.start, Capture.discardActive, Capture.cores]
  have hstop : p.capture.stop.cores = p.capture.cores := by
    simp [Capture.stop, Capture.flush, Capture.cores]
  cases e with
  | write knob raw =>
    simp only [after, write]
    split
    · next hwrite => exact ⟨rfl, (Control.write_ok hwrite).2.1⟩
    · exact ⟨rfl, rfl⟩
  | pipeline e =>
    cases e with
    | overflow core =>
      have hcases := p.capture.overflow_cases core
      simp only [after, step]
      generalize (p.capture.overflow core).1 = outcome at hcases
      generalize (p.capture.overflow core).2 = c' at hcases
      cases hcases with
      | ignored => exact ⟨rfl, rfl⟩
      | missed => exact ⟨rfl, rfl⟩
      | recorded => exact ⟨List.length_set, rfl⟩
      | published => exact ⟨List.length_set, rfl⟩
    | start => exact ⟨hstart, rfl⟩
    | stop => exact ⟨hstop, rfl⟩
    | flush => exact ⟨hstop, rfl⟩
    | apply knob raw =>
      refine ⟨?_, activePeriod_apply p.capture knob raw⟩
      simp only [after, step]
      rcases p.capture.apply_cases knob raw with ⟨-, h⟩ | ⟨-, h⟩ | ⟨-, -, control, h, -⟩
      · rw [h, hstart]
      · rw [h, hstop]
      · rw [h]
        rfl
    | drain =>
      obtain ⟨hactive, hcontrol, -⟩ := p.drain_same
      exact ⟨congrArg List.length hactive, congrArg Control.activePeriod hcontrol⟩
    | release i =>
      obtain ⟨hactive, hcontrol, -⟩ := p.release_same i
      exact ⟨congrArg List.length hactive, congrArg Control.activePeriod hcontrol⟩
    | close => exact ⟨rfl, rfl⟩
    | reopen => exact ⟨rfl, rfl⟩
    | elapse source => exact ⟨rfl, rfl⟩

/-- The period in effect changes with a start only, to the requested one or the smallest one. -/
theorem activePeriod_after (p : Pipeline σ) (e : CaptureEvent σ) :
    (p.after e).capture.control.activePeriod =
      if e.Starts p.capture.control then max Control.minPeriod p.capture.control.period
      else p.capture.control.activePeriod := by
  rw [← Control.clampPeriod_eq_max]
  exact (p.after_keeps e).2

/-- A start arms every core, with the period that it puts into effect. -/
theorem calls_of_not_overflow (p : Pipeline σ) {e : PipelineEvent σ}
    (he : ∀ core, e ≠ .overflow core) :
    p.calls e =
      if e.request? p.capture.control = some .start then
        (List.range p.capture.cores).map fun i =>
          .rearm (UInt32.ofNat i) (p.step e).capture.control.activePeriod
      else [] := by
  have hcalls : p.calls e =
      if e.request? p.capture.control = some .start then p.capture.startCalls else [] := by
    cases e with
    | overflow core => exact absurd rfl (he core)
    | _ => rfl
  rw [hcalls]
  split
  · next hstart =>
    have hstep : (p.step e).capture.control.activePeriod =
        Control.clampPeriod p.capture.control.period :=
      (p.after_keeps (.pipeline e)).2.trans (if_pos hstart)
    rw [hstep]
    rfl
  · rfl

end Pipeline

namespace Pipeline.Balanced

variable {σ : Type} {capacity : Nat} {p : Pipeline σ}

theorem write (hp : p.Balanced capacity) (knob : Knob) (raw : String) :
    (p.write knob raw).Balanced capacity := by
  unfold Pipeline.write
  split
  · exact ⟨hp.capacity, hp.total, hp.free, hp.full, hp.active⟩
  · exact hp

variable [CounterSource σ]

theorem after (hp : p.Balanced capacity) : ∀ e : CaptureEvent σ, (p.after e).Balanced capacity
  | .pipeline e => hp.step e
  | .write knob raw => hp.write knob raw

end Pipeline.Balanced

/-- What is in a slot after one of them was written. -/
theorem mem_filterMap_set {slots : List (Option Buffer)} {i : Nat} {slot : Option Buffer}
    {b : Buffer} (hb : b ∈ (slots.set i slot).filterMap id) :
    slot = some b ∨ b ∈ slots.filterMap id := by
  obtain ⟨slot', hslot, rfl⟩ := List.mem_filterMap.1 hb
  rcases List.mem_or_eq_of_mem_set hslot with hslot | hslot
  · exact .inr (List.mem_filterMap.2 ⟨_, hslot, rfl⟩)
  · exact .inl hslot.symm

/-! ## What is written down -/

/-- A sample that was taken. -/
structure Taking where
  core : UInt32
  /-- Number of starts before. -/
  run : Nat
  /-- The period in effect. -/
  period : UInt32
  /-- What the cycle counter showed. -/
  reading : UInt64
  sample : Sample
  deriving DecidableEq, Repr

/-- A pipeline with the periods that were in effect and the samples that were taken. -/
structure Timeline (σ : Type) where
  now : Pipeline σ
  /-- The period before any start, and after each start the period that it put into effect. -/
  periods : List UInt32
  /-- All samples that were taken, the earliest first. -/
  takings : List Taking := []

namespace Timeline

variable {σ : Type}

def new (p : Pipeline σ) : Timeline σ where
  now := p
  periods := [p.capture.control.activePeriod]

def starts (h : Timeline σ) : Nat := h.periods.length - 1

/-- A buffer holds samples of its core that were taken in one run, in the order in which they were
taken. -/
def Holds (h : Timeline σ) (run : Nat) (b : Buffer) : Prop :=
  ∃ ts : List Taking, ts.Sublist h.takings ∧ (∀ t ∈ ts, t.core = b.core ∧ t.run = run) ∧
    b.samples = ts.map Taking.sample

variable [CounterSource σ]

def taking (h : Timeline σ) (core : UInt32) : Taking where
  core := core
  run := h.starts
  period := h.now.capture.control.activePeriod
  reading := Capture.cyclesRead core h.now.capture.source
  sample := h.now.capture.sampleFor core

/-- The samples that an event takes: one for an overflow that is recorded or published. -/
def taken (h : Timeline σ) : CaptureEvent σ → List Taking
  | .pipeline (.overflow core) =>
    match (h.now.capture.overflow core).1 with
    | .recorded | .published => [h.taking core]
    | .missed | .ignored => []
  | _ => []

def step (h : Timeline σ) (e : CaptureEvent σ) : Timeline σ where
  now := h.now.after e
  periods :=
    if e.Starts h.now.capture.control then
      h.periods ++ [(h.now.after e).capture.control.activePeriod]
    else h.periods
  takings := h.takings ++ h.taken e

def run (h : Timeline σ) (events : List (CaptureEvent σ)) : Timeline σ := events.foldl step h

theorem now_run (h : Timeline σ) (events : List (CaptureEvent σ)) :
    (h.run events).now = events.foldl Pipeline.after h.now := by
  induction events generalizing h with
  | nil => rfl
  | cons e events ih => exact ih (h.step e)

/-! ## Buffers of one run -/

/-- Every active buffer holds samples of the present run, every other one samples of some run. -/
structure Unmixed (h : Timeline σ) : Prop where
  active : ∀ b ∈ h.now.capture.activeBuffers, h.Holds h.starts b
  completed : ∀ b ∈ h.now.drained ++ h.now.capture.pool.full, ∃ run, h.Holds run b

section
variable {h : Timeline σ} {e : CaptureEvent σ}

omit [CounterSource σ] in
theorem Unmixed.new (capacity cores : Nat) (control : Control) (source : σ) :
    (Timeline.new (.new capacity cores control source)).Unmixed where
  active b hb := by
    simp [Timeline.new, Pipeline.new, Capture.new, Capture.activeBuffers] at hb
  completed b hb := by cases hb

omit [CounterSource σ] in
theorem Holds.of_empty {b : Buffer} (hb : b.samples = []) (run : Nat) : h.Holds run b :=
  ⟨[], List.nil_sublist _, nofun, hb⟩

theorem Holds.later {run : Nat} {b : Buffer} (hb : h.Holds run b) : (h.step e).Holds run b := by
  obtain ⟨ts, hts, hof, hsamples⟩ := hb
  exact ⟨ts, hts.trans (List.sublist_append_left ..), hof, hsamples⟩

/-- A sample that is taken into a buffer of its core and of the present run stands last in it. -/
theorem Holds.push {core : UInt32} {b : Buffer} (hb : h.Holds h.starts b) (hcore : b.core = core)
    (hroom : b.samples.length < bufferCapacity) (htaken : h.taken e = [h.taking core]) :
    (h.step e).Holds h.starts (b.push (h.now.capture.sampleFor core)) := by
  obtain ⟨ts, hts, hof, hsamples⟩ := hb
  refine ⟨ts ++ [h.taking core], ?_, fun t ht => ?_, ?_⟩
  · rw [step, htaken]
    exact hts.append (List.Sublist.refl _)
  · rw [Buffer.core_push]
    rcases List.mem_append.1 ht with ht | ht
    · exact hof t ht
    · rw [List.mem_singleton.1 ht]
      exact ⟨hcore.symm, rfl⟩
  · rw [Buffer.samples_push (Buffer.isFull_eq_false_iff.2 hroom), hsamples, List.map_append]
    rfl

theorem starts_step (he : ¬ e.Starts h.now.capture.control) : (h.step e).starts = h.starts := by
  simp only [starts, step, he, if_false]

/-- The buffers stay unmixed if every one that is new in its place is of the present run. -/
theorem Unmixed.of_new (hh : h.Unmixed) (he : ¬ e.Starts h.now.capture.control)
    (new : List Buffer) (hnew : ∀ b ∈ new, (h.step e).Holds h.starts b)
    (hactive : (h.now.after e).capture.activeBuffers ⊆ new ++ h.now.capture.activeBuffers)
    (hqueue : (h.now.after e).drained ++ (h.now.after e).capture.pool.full ⊆
      new ++ (h.now.drained ++ h.now.capture.pool.full)) : (h.step e).Unmixed where
  active b hb := by
    rw [starts_step he]
    rcases List.mem_append.1 (hactive hb) with hb | hb
    · exact hnew b hb
    · exact (hh.active b hb).later
  completed b hb := by
    rcases List.mem_append.1 (hqueue hb) with hb | hb
    · exact ⟨h.starts, hnew b hb⟩
    · obtain ⟨run, hrun⟩ := hh.completed b hb
      exact ⟨run, hrun.later⟩

theorem Unmixed.of_same (hh : h.Unmixed) (he : ¬ e.Starts h.now.capture.control)
    (hactive : (h.now.after e).capture.active = h.now.capture.active)
    (hqueue : (h.now.after e).drained ++ (h.now.after e).capture.pool.full =
      h.now.drained ++ h.now.capture.pool.full) : (h.step e).Unmixed := by
  refine hh.of_new he [] nofun ?_ ?_
  · rw [Capture.activeBuffers, hactive]
    exact List.Subset.refl _
  · rw [hqueue]
    exact List.Subset.refl _

/-- A flush completes what was active. -/
theorem Unmixed.of_flushed (hh : h.Unmixed) (he : ¬ e.Starts h.now.capture.control)
    (hactive : (h.now.after e).capture.activeBuffers = [])
    (hdrained : (h.now.after e).drained = h.now.drained)
    (hfull : (h.now.after e).capture.pool.full =
      h.now.capture.pool.full ++ h.now.capture.activeBuffers) : (h.step e).Unmixed := by
  refine hh.of_new he h.now.capture.activeBuffers (fun b hb => (hh.active b hb).later) ?_ ?_
  · rw [hactive]
    exact List.nil_subset _
  · rw [hdrained, hfull, ← List.append_assoc]
    exact List.perm_append_comm.subset

/-- A start empties the slots and completes nothing. -/
theorem Unmixed.of_started (hh : h.Unmixed)
    (hnow : h.now.after e = { h.now with capture := h.now.capture.start }) :
    (h.step e).Unmixed where
  active b hb := by
    have hempty : (h.now.after e).capture.activeBuffers = [] := by
      rw [hnow]
      exact h.now.capture.activeBuffers_discardActive
    rw [step, hempty] at hb
    cases hb
  completed b hb := by
    have hfull : (h.now.after e).drained ++ (h.now.after e).capture.pool.full =
        h.now.drained ++ h.now.capture.pool.full := by
      rw [hnow]
      simp only [Capture.start, Capture.pool_discardActive, Pool.reopen]
    obtain ⟨run, hrun⟩ := hh.completed b (hfull ▸ hb)
    exact ⟨run, hrun.later⟩

variable {capacity : Nat}

omit [CounterSource σ] in
/-- The buffer for the next sample is of the present run. -/
theorem Unmixed.bufferFor (hh : h.Unmixed) {core : UInt32} {b : Buffer} {pool : Pool}
    (hb : h.now.capture.bufferFor core = some (b, pool)) : h.Holds h.starts b := by
  rcases Capture.mem_or_eq_nil_of_bufferFor hb with hactive | hempty
  · exact hh.active b hactive
  · exact .of_empty hempty _

theorem Unmixed.overflow (hh : h.Unmixed) (hbalanced : h.now.Balanced capacity) (core : UInt32) :
    (h.step (.pipeline (.overflow core))).Unmixed := by
  have hcases := h.now.capture.overflow_cases core
  have hnot : ¬ (CaptureEvent.pipeline (.overflow core) : CaptureEvent σ).Starts
    h.now.capture.control := nofun
  have htaken : h.taken (.pipeline (.overflow core)) =
    match (h.now.capture.overflow core).1 with
    | .recorded | .published => [h.taking core]
    | .missed | .ignored => [] := rfl
  generalize hafter : (h.now.capture.overflow core).2 = c' at hcases
  generalize (h.now.capture.overflow core).1 = outcome at hcases htaken
  have hnow : h.now.after (.pipeline (.overflow core)) = { h.now with capture := c' } := by
    rw [← hafter]
    rfl
  cases hcases with
  | ignored => exact hh.of_same hnot (by rw [hnow]) (by rw [hnow])
  | missed => exact hh.of_same hnot (by rw [hnow]) (by rw [hnow])
  | @recorded b pool hlistens hb hroom =>
    obtain ⟨hcore, hlt, ⟨free, rfl, -⟩, -⟩ := hbalanced.bufferFor hb
    have hpushed := (hh.bufferFor hb).push hcore hlt htaken
    refine hh.of_new hnot _ (List.forall_mem_singleton.2 hpushed) ?_ ?_
    · rw [hnow]
      intro b' hb'
      rcases mem_filterMap_set hb' with heq | hb'
      · exact List.mem_append_left _ (List.mem_singleton.2 (Option.some.inj heq).symm)
      · exact List.mem_append_right _ hb'
    · rw [hnow]
      exact List.subset_append_right ..
  | @published b pool hlistens hb hfull =>
    obtain ⟨hcore, hlt, ⟨free, rfl, -⟩, -⟩ := hbalanced.bufferFor hb
    have hpushed := (hh.bufferFor hb).push hcore hlt htaken
    refine hh.of_new hnot _ (List.forall_mem_singleton.2 hpushed) ?_ ?_
    · rw [hnow]
      intro b' hb'
      rcases mem_filterMap_set hb' with heq | hb'
      · cases heq
      · exact List.mem_append_right _ hb'
    · rw [hnow]
      simp only [Pool.publish, ← List.append_assoc]
      exact List.perm_append_comm.subset

/-- An event leaves the buffers unmixed. -/
theorem Unmixed.step (hh : h.Unmixed) (hbalanced : h.now.Balanced capacity) (e : CaptureEvent σ) :
    (h.step e).Unmixed := by
  have hflush : h.now.capture.flush.2.pool.full =
      h.now.capture.pool.full ++ h.now.capture.activeBuffers := by
    rw [Capture.pool_flush_eq hbalanced.activeBuffers_isEmpty]
  have hempty := h.now.capture.activeBuffers_flush
  have hquiet : (none : Option StatusRequest) ≠ some .start := by decide
  have hstop : some StatusRequest.stop ≠ some .start := by decide
  cases e with
  | write knob raw =>
    refine hh.of_same id ?_ ?_
    all_goals
      simp only [Pipeline.after, Pipeline.write]
      split <;> rfl
  | pipeline e =>
    cases e with
    | overflow core => exact hh.overflow hbalanced core
    | start => exact hh.of_started rfl
    | stop => exact hh.of_flushed hstop hempty rfl hflush
    | flush => exact hh.of_flushed hquiet hempty rfl hflush
    | apply knob raw =>
      -- a knob does what its request asks for
      rcases h.now.capture.apply_cases knob raw with
        ⟨-, happly⟩ | ⟨hrequest, happly⟩ | ⟨hstart, -, control, happly, -⟩
      · refine hh.of_started ?_
        simp only [Pipeline.after, Pipeline.step, happly]
      · refine hh.of_flushed (hrequest.trans_ne hstop) ?_ ?_ ?_
        all_goals simp only [Pipeline.after, Pipeline.step, happly]
        · exact hempty
        · exact hflush
      · refine hh.of_same hstart ?_ ?_
        all_goals simp only [Pipeline.after, Pipeline.step, happly]
    | drain =>
      obtain ⟨hactive, -, hqueue, -⟩ := h.now.drain_same
      exact hh.of_same hquiet hactive hqueue
    | release i =>
      obtain ⟨hactive, -, hdrained, hfull, -⟩ := h.now.release_same i
      exact hh.of_same hquiet hactive (congr (congrArg _ hdrained) hfull)
    | close => exact hh.of_same hquiet rfl rfl
    | reopen => exact hh.of_same hquiet rfl rfl
    | elapse source => exact hh.of_same hquiet rfl rfl

/-! ## Sound timelines -/

theorem eq_taking_of_mem_taken {t : Taking} (ht : t ∈ h.taken e) :
    ∃ core, e = .pipeline (.overflow core) ∧ t = h.taking core := by
  unfold taken at ht
  split at ht
  · next core =>
    refine ⟨core, rfl, ?_⟩
    split at ht
    · exact List.mem_singleton.1 ht
    · exact List.mem_singleton.1 ht
    · cases ht
    · cases ht
  · cases ht

/-- A period that is written down stays. -/
theorem getElem?_periods_step {run : Nat} {period : UInt32} (hrun : h.periods[run]? = some period) :
    (h.step e).periods[run]? = some period := by
  simp only [step]
  split
  · obtain ⟨hlt, -⟩ := List.getElem?_eq_some_iff.1 hrun
    rw [List.getElem?_append_left hlt]
    exact hrun
  · exact hrun

/-- What a timeline says agrees with its pipeline: the last period is the one in effect, every
sample is of the period of its run, and every buffer is of one run. -/
structure Sound (capacity cores : Nat) (h : Timeline σ) : Prop where
  balanced : h.now.Balanced capacity
  cores : h.now.capture.cores = cores
  least : Control.minPeriod ≤ h.now.capture.control.activePeriod
  current : h.periods[h.starts]? = some h.now.capture.control.activePeriod
  takings : ∀ t ∈ h.takings, h.periods[t.run]? = some t.period ∧
    t.sample.cycles = t.reading + t.period.toUInt64
  unmixed : h.Unmixed

omit [CounterSource σ] in
theorem Sound.new (capacity cores : Nat) (period : UInt32) (selectors : List UInt32) (source : σ) :
    (Timeline.new (.new capacity cores (.new period selectors) source)).Sound capacity cores where
  balanced := .new capacity cores _ source
  cores := by simp [Timeline.new, Pipeline.new, Capture.new, Capture.cores]
  least := Control.le_clampPeriod_iff.2 (.inl (UInt32.le_refl _))
  current := rfl
  takings t ht := by cases ht
  unmixed := .new capacity cores _ source

variable {cores : Nat}

theorem Sound.current_step (hh : h.Sound capacity cores) (e : CaptureEvent σ) :
    (h.step e).periods[(h.step e).starts]? = some (h.step e).now.capture.control.activePeriod := by
  by_cases he : e.Starts h.now.capture.control
  · have hperiods : (h.step e).periods =
        h.periods ++ [(h.now.after e).capture.control.activePeriod] := if_pos he
    have hstarts : (h.step e).starts = h.periods.length := by
      rw [starts, hperiods, List.length_append, List.length_singleton, Nat.add_sub_cancel]
    rw [hstarts, hperiods, List.getElem?_concat_length]
    rfl
  · have hactive : (h.step e).now.capture.control.activePeriod =
        h.now.capture.control.activePeriod := (h.now.after_keeps e).2.trans (if_neg he)
    rw [starts_step he, hactive]
    exact getElem?_periods_step hh.current

theorem Sound.takings_step (hh : h.Sound capacity cores) (e : CaptureEvent σ) :
    ∀ t ∈ (h.step e).takings, (h.step e).periods[t.run]? = some t.period ∧
      t.sample.cycles = t.reading + t.period.toUInt64 := by
  intro t ht
  rcases List.mem_append.1 ht with ht | ht
  · obtain ⟨hperiod, hcycles⟩ := hh.takings t ht
    exact ⟨getElem?_periods_step hperiod, hcycles⟩
  · obtain ⟨core, rfl, rfl⟩ := eq_taking_of_mem_taken ht
    exact ⟨getElem?_periods_step hh.current, Capture.cycles_snapshot ..⟩

theorem Sound.step (hh : h.Sound capacity cores) (e : CaptureEvent σ) :
    (h.step e).Sound capacity cores where
  balanced := hh.balanced.after e
  cores := (h.now.after_keeps e).1.trans hh.cores
  least := by
    have hleast := hh.least
    simp only [Timeline.step, (h.now.after_keeps e).2]
    split
    · exact Control.le_clampPeriod_iff.2 (.inl (UInt32.le_refl _))
    · exact hleast
  current := hh.current_step e
  takings := hh.takings_step e
  unmixed := hh.unmixed.step hh.balanced e

theorem Sound.run (hh : h.Sound capacity cores) (events : List (CaptureEvent σ)) :
    (h.run events).Sound capacity cores := by
  induction events generalizing h with
  | nil => exact hh
  | cons e events ih => exact ih (hh.step e)

omit [CounterSource σ] in
/-- The cycle counts in a buffer of one run do not decrease if no sum wraps and the readings of its
core do not decrease. -/
theorem Sound.cycles_do_not_decrease (hh : h.Sound capacity cores)
    (hreadings : h.takings.Pairwise fun t t' => t.core = t'.core → t.reading ≤ t'.reading)
    (hsums : ∀ t ∈ h.takings, t.reading.toNat + t.period.toNat < UInt64.size)
    {run : Nat} {b : Buffer} (hb : h.Holds run b) :
    b.samples.Pairwise fun s s' => s.cycles ≤ s'.cycles := by
  obtain ⟨ts, hts, hof, hsamples⟩ := hb
  have hnat : ∀ t ∈ ts, t.sample.cycles.toNat = t.reading.toNat + t.period.toNat := by
    intro t ht
    have hmem := hts.subset ht
    rw [(hh.takings t hmem).2, UInt64.toNat_add, UInt32.toNat_toUInt64]
    exact Nat.mod_eq_of_lt (hsums t hmem)
  rw [hsamples, List.pairwise_map]
  refine (hreadings.sublist hts).imp_of_mem fun {t t'} ht ht' hle => ?_
  have hcore : t.core = t'.core := (hof t ht).1.trans (hof t' ht').1.symm
  have hperiod : t.period = t'.period := by
    have h₁ := (hh.takings t (hts.subset ht)).1
    have h₂ := (hh.takings t' (hts.subset ht')).1
    rw [(hof t ht).2] at h₁
    rw [(hof t' ht').2] at h₂
    exact Option.some.inj (h₁.symm.trans h₂)
  have hreading := UInt64.le_iff_toNat_le.1 (hle hcore)
  rw [UInt64.le_iff_toNat_le, hnat t ht, hnat t' ht', hperiod]
  omega

end

/-- **Samples keep the period of their run.**  After any events, on any number of cores, with any
requested period, knobs written at any time:

* the period in effect is at least the smallest one; whatever happens next changes it only by a
  start, to the requested period or the smallest one, and it is the last one written down;
* what happens next arms every core once if it is a start, the overflowing core once if it is an
  overflow that is not ignored, and no core otherwise, always with the period in effect;
* the cycle count of every sample is the reading of the clock and the period of its run;
* every buffer holds samples of one run, and if the readings of each core do not decrease and no
  sum wraps, then the cycle counts in it do not decrease. -/
theorem samples_keep_their_period (capacity cores : Nat) (period : UInt32)
    (selectors : List UInt32) (source : σ) (events : List (CaptureEvent σ)) :
    let start : Pipeline σ := .new capacity cores (.new period selectors) source
    let h := (Timeline.new start).run events
    let p := events.foldl Pipeline.after start
    let c := p.capture
    let buffers := p.drained ++ c.pool.full ++ c.activeBuffers
    h.now = p ∧
      Control.minPeriod ≤ c.control.activePeriod ∧
      (∀ e : CaptureEvent σ, (p.after e).capture.control.activePeriod =
        if e.Starts c.control then max Control.minPeriod c.control.period
        else c.control.activePeriod) ∧
      h.periods[h.starts]? = some c.control.activePeriod ∧
      (∀ e : PipelineEvent σ, (p.watched []).step e.watched = (p.step e).watched (p.calls e)) ∧
      (∀ knob raw, (p.watched []).write knob raw = (p.write knob raw).watched []) ∧
      (∀ core, p.calls (.overflow core) =
        match (c.overflow core).1 with
        | .recorded | .published =>
          [.cycles core (Capture.cyclesRead core c.source), .rearm core c.control.activePeriod]
        | .missed => [.rearm core c.control.activePeriod]
        | .ignored => []) ∧
      (∀ e : PipelineEvent σ, (∀ core, e ≠ .overflow core) →
        p.calls e =
          if e.request? c.control = some .start then
            (List.range cores).map fun i =>
              .rearm (UInt32.ofNat i) (p.step e).capture.control.activePeriod
          else []) ∧
      (∀ t ∈ h.takings, h.periods[t.run]? = some t.period ∧
        t.sample.cycles = t.reading + t.period.toUInt64) ∧
      (∀ b ∈ buffers, ∃ run, h.Holds run b) ∧
      ((h.takings.Pairwise fun t t' => t.core = t'.core → t.reading ≤ t'.reading) →
        (∀ t ∈ h.takings, t.reading.toNat + t.period.toNat < UInt64.size) →
        ∀ b ∈ buffers, b.samples.Pairwise fun s s' => s.cycles ≤ s'.cycles) := by
  intro start h p c buffers
  have hh : h.Sound capacity cores :=
    (Sound.new capacity cores period selectors source).run events
  have hnow : h.now = p := Timeline.now_run _ events
  have hcores := hh.cores
  have hleast := hh.least
  have hcurrent := hh.current
  rw [hnow] at hcores hleast hcurrent
  have hheld : ∀ b ∈ buffers, ∃ run, h.Holds run b := by
    intro b hb
    rcases List.mem_append.1 hb with hb | hb
    · exact hh.unmixed.completed b (hnow ▸ hb)
    · exact ⟨h.starts, hh.unmixed.active b (hnow ▸ hb)⟩
  refine ⟨hnow, hleast, p.activePeriod_after, hcurrent, p.step_watched, p.write_watched,
    fun _ => rfl, fun e he => ?_, hh.takings, hheld, fun hreadings hsums b hb => ?_⟩
  · rw [← hcores]
    exact p.calls_of_not_overflow he
  · obtain ⟨run, hrun⟩ := hheld b hb
    exact hh.cycles_do_not_decrease hreadings hsums hrun

/-- Two runs, the first with the smallest period, the second with a period that was written past the
capture while the first went on.  Both cores have samples of both runs. -/
def twoRuns : List (CaptureEvent SteadyCounters) :=
  [.pipeline .start, .pipeline (.overflow 1), .pipeline (.overflow 0), .write .period "20000",
    .pipeline (.overflow 1), .pipeline .flush, .pipeline .start, .pipeline (.overflow 1),
    .pipeline (.overflow 0), .pipeline (.overflow 1), .pipeline .drain]

theorem samples_keep_two_periods :
    let start : Pipeline SteadyCounters := .new 4 2 (.new 500 []) {}
    let h := (Timeline.new start).run twoRuns
    let p := twoRuns.foldl Pipeline.after start
    h.periods = [10000, 10000, 20000] ∧ h.takings.map Taking.run = [1, 1, 1, 2, 2, 2] ∧
      ∀ b ∈ p.drained ++ p.capture.pool.full ++ p.capture.activeBuffers,
        b.samples.Pairwise fun s s' => s.cycles ≤ s'.cycles := by
  obtain ⟨-, -, -, -, -, -, -, -, -, -, hcycles⟩ :=
    samples_keep_their_period 4 2 500 [] ({} : SteadyCounters) twoRuns
  exact ⟨by decide, by decide, hcycles (by decide) (by decide)⟩

end Timeline

end CounterTrace
