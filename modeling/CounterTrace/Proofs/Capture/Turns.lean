import CounterTrace.Proofs.Capture.Timing

/-!
# Tasks that take turns

Task counters keep a count for each core, and the count says whose turn it is on the core.  A core
is asked for its process when a sample is read and at no other time, so that the count is the number
of samples that were taken on the core, whatever happened in between.

    (c.sampleFor core).pid               whose turn it is                         (pid_sampleFor)
    (c.sourceAfter core).turns           one more on the core                 (turns_sourceAfter)
    h.step e                             takes one sample, or keeps all that an arming keeps
                                                                                     (step_takes)
    h.Turning cores known pids           the counts are those of the samples taken
                                                                      (Turning.tick, Turning.pass)

Hence a task has a core for `samplesPerTask` samples, and then the next one has it.
-/

namespace CounterTrace

/-! ## Asking for the process -/

namespace TaskCounters

/-- The same tasks with the same counts. -/
structure SameTurns (s s' : TaskCounters) : Prop where
  pids : s'.pids = s.pids
  turns : s'.turns = s.turns

theorem SameTurns.rearm {s s' : TaskCounters} (h : s.SameTurns s') (core period : UInt32) :
    s.SameTurns (CounterSource.rearm s' core period) := ⟨h.pids, h.turns⟩

/-- A process that is asked for is that of the turn. -/
theorem currentPid_fst {s : TaskCounters} {core : UInt32} {turn : UInt64}
    (hturn : s.turns[core.toNat]? = some turn) :
    (CounterSource.currentPid s core).1 = pidAt s.pids core turn := by
  simp only [CounterSource.currentPid, hturn]

theorem pids_currentPid (s : TaskCounters) (core : UInt32) :
    (CounterSource.currentPid s core).2.pids = s.pids := by
  simp only [CounterSource.currentPid]
  split <;> rfl

theorem turns_currentPid (s : TaskCounters) (core : UInt32) :
    (CounterSource.currentPid s core).2.turns = s.turns.modify core.toNat (· + 1) := by
  simp only [CounterSource.currentPid]
  split
  · next hnone => rw [List.modify_eq_self (List.getElem?_eq_none_iff.1 hnone)]
  · next turn hturn =>
    rw [List.modify_eq_set_getElem?, hturn]
    rfl

theorem readCounters_snd (s : TaskCounters) (core : UInt32) (i n : Nat) :
    (Capture.readCounters core i n s).2 = s := by
  induction n generalizing i with
  | zero => rfl
  | succ n ih => exact ih (i + 1)

/-- Where there are tasks, the one whose turn it is is among them. -/
theorem getElem?_pidAt {pids : List UInt32} (hpids : pids ≠ []) (core : UInt32) (turn : UInt64) :
    pids[(turn.toNat / samplesPerTask + core.toNat) % pids.length]? =
      some (pidAt pids core turn) := by
  have hlt : (turn.toNat / samplesPerTask + core.toNat) % pids.length < pids.length :=
    Nat.mod_lt _ (List.length_pos_iff.2 hpids)
  rw [pidAt, List.getD_eq_getElem?_getD, List.getElem?_eq_getElem hlt, Option.getD_some]

end TaskCounters

namespace Capture

variable (c : Capture TaskCounters) (core : UInt32)

theorem snapshot_tasks (period : UInt32) (s : TaskCounters) :
    (snapshot core period s).1.pid = (CounterSource.currentPid s core).1 ∧
      (snapshot core period s).2 = (CounterSource.currentPid s core).2 := by
  simp only [snapshot, TaskCounters.readCounters_snd, CounterSource.readCycles, and_self]

theorem pid_sampleFor : (c.sampleFor core).pid = (CounterSource.currentPid c.source core).1 :=
  (snapshot_tasks ..).1

theorem pids_sourceAfter : (c.sourceAfter core).pids = c.source.pids := by
  simp only [sourceAfter, (snapshot_tasks ..).2, CounterSource.rearm, TaskCounters.pids_currentPid]

theorem turns_sourceAfter :
    (c.sourceAfter core).turns = c.source.turns.modify core.toNat (· + 1) := by
  simp only [sourceAfter, (snapshot_tasks ..).2, CounterSource.rearm, TaskCounters.turns_currentPid]

end Capture

/-! ## Events that take no sample -/

section
variable {σ : Type} [CounterSource σ] {Kept : σ → Prop}

/-- What an arming keeps is kept by every event that is not an overflow, if what elapses keeps
it. -/
theorem Pipeline.source_after (p : Pipeline σ)
    (hrearm : ∀ s core period, Kept s → Kept (CounterSource.rearm s core period))
    (hp : Kept p.capture.source) {e : CaptureEvent σ}
    (he : ∀ core, e ≠ .pipeline (.overflow core))
    (helapse : ∀ s, e = .pipeline (.elapse s) → Kept s) : Kept (p.after e).capture.source := by
  have hstart : Kept p.capture.start.source := by
    have hfold : ∀ (is : List Nat) (period : UInt32) (s : σ), Kept s →
        Kept (is.foldl (fun s i => CounterSource.rearm s (UInt32.ofNat i) period) s) := by
      intro is period
      induction is with
      | nil => exact fun _ hs => hs
      | cons i is ih => exact fun s hs => ih _ (hrearm s _ _ hs)
    exact hfold _ _ _ hp
  cases e with
  | write knob raw =>
    simp only [after, write]
    split <;> exact hp
  | pipeline e =>
    cases e with
    | overflow core => exact absurd rfl (he core)
    | start => exact hstart
    | stop => exact hp
    | flush => exact hp
    | apply knob raw =>
      simp only [after, step]
      rcases p.capture.apply_cases knob raw with ⟨-, h⟩ | ⟨-, h⟩ | ⟨-, -, control, h, -⟩
      · rw [h]
        exact hstart
      · rw [h]
        exact hp
      · rw [h]
        exact hp
    | drain =>
      simp only [after, step, drain]
      split <;> exact hp
    | release i =>
      simp only [after, step, release]
      split <;> exact hp
    | close => exact hp
    | reopen => exact hp
    | elapse source => exact helapse source rfl

omit [CounterSource σ] in
/-- Only a core that the capture has is given a buffer. -/
theorem Capture.lt_cores_of_bufferFor {c : Capture σ} {core : UInt32} {b : Buffer} {pool : Pool}
    (hb : c.bufferFor core = some (b, pool)) : core.toNat < c.cores := by
  by_contra hnot
  have hslot : c.active[core.toNat]? = none := List.getElem?_eq_none (Nat.le_of_not_lt hnot)
  simp only [bufferFor, hslot, reduceCtorEq] at hb

namespace Timeline

theorem taken_of_takes (h : Timeline σ) {core : UInt32}
    (htakes : (h.now.capture.overflow core).1 = .recorded ∨
      (h.now.capture.overflow core).1 = .published) :
    h.taken (.pipeline (.overflow core)) = [h.taking core] := by
  rcases htakes with houtcome | houtcome
  · simp only [taken, houtcome]
  · simp only [taken, houtcome]

theorem taken_of_not_takes (h : Timeline σ) {core : UInt32}
    (hnot : (h.now.capture.overflow core).1 = .missed ∨
      (h.now.capture.overflow core).1 = .ignored) :
    h.taken (.pipeline (.overflow core)) = [] := by
  rcases hnot with houtcome | houtcome
  · simp only [taken, houtcome]
  · simp only [taken, houtcome]

/-- An event takes one sample, from a core that the capture has, or none and keeps what an arming
keeps. -/
theorem step_takes (h : Timeline σ) (Kept : σ → Prop)
    (hrearm : ∀ s core period, Kept s → Kept (CounterSource.rearm s core period))
    (hkept : Kept h.now.capture.source) (e : CaptureEvent σ)
    (helapse : ∀ s, e = .pipeline (.elapse s) → Kept s) :
    (h.taken e = [] ∧ Kept (h.step e).now.capture.source) ∨
      ∃ core, h.taken e = [h.taking core] ∧ core.toNat < h.now.capture.cores ∧
        (h.step e).now.capture.source = h.now.capture.sourceAfter core := by
  by_cases he : ∃ core, e = .pipeline (.overflow core)
  · -- the process is asked for only where a buffer for the sample has been found
    obtain ⟨core, rfl⟩ := he
    have hsource : (h.step (.pipeline (.overflow core))).now.capture.source =
      (h.now.capture.overflow core).2.source := rfl
    have hcases := h.now.capture.overflow_cases core
    rw [hsource]
    generalize houtcome : (h.now.capture.overflow core).1 = outcome at hcases
    generalize (h.now.capture.overflow core).2 = c' at hcases
    cases hcases with
    | ignored => exact .inl ⟨h.taken_of_not_takes (.inr houtcome), hkept⟩
    | missed => exact .inl ⟨h.taken_of_not_takes (.inl houtcome), hrearm _ _ _ hkept⟩
    | recorded _ hb => exact .inr ⟨core, h.taken_of_takes (.inl houtcome), Capture.lt_cores_of_bufferFor hb, rfl⟩
    | published _ hb => exact .inr ⟨core, h.taken_of_takes (.inr houtcome), Capture.lt_cores_of_bufferFor hb, rfl⟩
  · have hnot : ∀ core, e ≠ .pipeline (.overflow core) := fun core heq => he ⟨core, heq⟩
    refine .inl ⟨?_, h.now.source_after hrearm hkept hnot helapse⟩
    unfold taken
    split
    · next core => exact absurd rfl (hnot core)
    · rfl

end Timeline

end

/-! ## The samples of a core -/

namespace Timeline

variable {σ : Type}

/-- The samples that were taken on a core, the earliest first. -/
def samplesOf (h : Timeline σ) (core : UInt32) : List Sample :=
  (h.takings.filter (·.core = core)).map Taking.sample

/-- A buffer holds samples of its core in the order in which they were taken. -/
theorem Holds.sublist_samplesOf {h : Timeline σ} {run : Nat} {b : Buffer} (hb : h.Holds run b) :
    b.samples.Sublist (h.samplesOf b.core) := by
  obtain ⟨ts, hts, hof, hsamples⟩ := hb
  have hfilter : ts.filter (·.core = b.core) = ts :=
    List.filter_eq_self.2 fun t ht => by simpa using (hof t ht).1
  rw [hsamples, ← hfilter]
  exact (hts.filter _).map _

variable [CounterSource σ]

theorem samplesOf_step (h : Timeline σ) (e : CaptureEvent σ) (core : UInt32) :
    (h.step e).samplesOf core =
      h.samplesOf core ++ ((h.taken e).filter (·.core = core)).map Taking.sample := by
  simp only [samplesOf, step, List.filter_append, List.map_append]

theorem samplesOf_taking (h : Timeline σ) (core core' : UInt32) :
    ([h.taking core].filter (·.core = core')).map Taking.sample =
      if core = core' then [h.now.capture.sampleFor core] else [] := by
  have hcore : (h.taking core).core = core := rfl
  rw [List.filter_singleton, hcore]
  split <;> simp_all [taking]

end Timeline

/-! ## Time that passes -/

/-- The same event with another source. -/
def PipelineEvent.map {σ τ : Type} (f : σ → τ) : PipelineEvent σ → PipelineEvent τ
  | .overflow core => .overflow core
  | .start => .start
  | .stop => .stop
  | .flush => .flush
  | .apply knob raw => .apply knob raw
  | .drain => .drain
  | .release i => .release i
  | .close => .close
  | .reopen => .reopen
  | .elapse source => .elapse (f source)

@[inherit_doc PipelineEvent.map]
def CaptureEvent.map {σ τ : Type} (f : σ → τ) : CaptureEvent σ → CaptureEvent τ
  | .pipeline e => .pipeline (e.map f)
  | .write knob raw => .write knob raw

theorem CaptureEvent.map_eq_elapse {σ τ : Type} {f : σ → τ} {e : CaptureEvent σ} {source : τ}
    (he : e.map f = .pipeline (.elapse source)) : ∃ s, f s = source := by
  cases e with
  | write knob raw => cases he
  | pipeline e =>
    cases e with
    | elapse s => exact ⟨s, by simpa [map, PipelineEvent.map] using he⟩
    | _ => cases he

theorem CaptureEvent.map_eq_overflow {σ τ : Type} {f : σ → τ} {e : CaptureEvent σ} {core : UInt32}
    (he : e.map f = .pipeline (.overflow core)) : e = .pipeline (.overflow core) := by
  cases e with
  | write knob raw => cases he
  | pipeline e =>
    cases e with
    | overflow core' => simpa [map, PipelineEvent.map] using he
    | _ => cases he

namespace Timeline

/-- An event happens to a capture with task counters.  What elapses is time. -/
def tick (h : Timeline TaskCounters) (e : CaptureEvent UInt64) : Timeline TaskCounters :=
  h.step (e.map fun now => { h.now.capture.source with now := now })

/-- Events happen one after the other, and time passes. -/
def pass (h : Timeline TaskCounters) (events : List (CaptureEvent UInt64)) :
    Timeline TaskCounters := events.foldl tick h

/-- An event takes one sample, or leaves every count as it is. -/
theorem tick_takes (h : Timeline TaskCounters) (e : CaptureEvent UInt64) :
    ((h.tick e).takings = h.takings ∧
        h.now.capture.source.SameTurns (h.tick e).now.capture.source) ∨
      ∃ core, (h.tick e).takings = h.takings ++ [h.taking core] ∧
        core.toNat < h.now.capture.cores ∧
        (h.tick e).now.capture.source = h.now.capture.sourceAfter core := by
  have htakings : (h.tick e).takings = h.takings ++
    h.taken (e.map fun now => { h.now.capture.source with now := now }) := rfl
  have helapse : ∀ s, (e.map fun now => { h.now.capture.source with now := now }) =
      .pipeline (.elapse s) → h.now.capture.source.SameTurns s := by
    intro s hs
    obtain ⟨now, rfl⟩ := CaptureEvent.map_eq_elapse hs
    exact ⟨rfl, rfl⟩
  rcases h.step_takes h.now.capture.source.SameTurns (fun _ core period hs => hs.rearm core period)
      ⟨rfl, rfl⟩ _ helapse with ⟨htaken, hsame⟩ | ⟨core, htaken, hcore, hsource⟩
  · exact .inl ⟨by rw [htakings, htaken, List.append_nil], hsame⟩
  · exact .inr ⟨core, by rw [htakings, htaken], hcore, hsource⟩

/-- The count of a core is the number of samples that were taken on it, and every one of them has
the process whose turn it was. -/
structure Turning (cores known : Nat) (pids : List UInt32) (h : Timeline TaskCounters) : Prop where
  turns : ∀ core : UInt32, core.toNat < known →
    h.now.capture.source.turns[core.toNat]? = some (UInt64.ofNat (h.samplesOf core).length)
  samples : ∀ core : UInt32, core.toNat < known →
    (h.samplesOf core).map Sample.pid =
      (List.range (h.samplesOf core).length).map fun k =>
        TaskCounters.pidAt pids core (UInt64.ofNat k)
  takings : ∀ t ∈ h.takings, t.core.toNat < cores
  pids : h.now.capture.source.pids = pids
  cores : h.now.capture.cores = cores

namespace Turning

variable {cores known : Nat} {pids : List UInt32} {h : Timeline TaskCounters}

theorem new (capacity cores known : Nat) (control : Control) (pids : List UInt32) :
    (Timeline.new (.new capacity cores control (.new known pids))).Turning cores known pids where
  turns core hcore := by
    have hturns : (TaskCounters.new known pids).turns = List.replicate known 0 := rfl
    simp only [Timeline.new, Pipeline.new, Capture.new, hturns, samplesOf, List.filter_nil,
      List.map_nil, List.length_nil, List.getElem?_replicate, hcore, if_true]
    rfl
  samples _ _ := rfl
  takings _ ht := by cases ht
  pids := rfl
  cores := List.length_replicate

/-- The next sample of a core has the process whose turn it is. -/
theorem pid_sampleFor (hh : h.Turning cores known pids) {core : UInt32} (hcore : core.toNat < known) :
    (h.now.capture.sampleFor core).pid =
      TaskCounters.pidAt pids core (UInt64.ofNat (h.samplesOf core).length) := by
  rw [Capture.pid_sampleFor, TaskCounters.currentPid_fst (hh.turns core hcore), hh.pids]

/-- A sample that is taken on a core is counted there and on no other core. -/
theorem of_taken (hh : h.Turning cores known pids) {h' : Timeline TaskCounters} {core : UInt32}
    (htakings : h'.takings = h.takings ++ [h.taking core])
    (hcore : core.toNat < h.now.capture.cores)
    (hsource : h'.now.capture.source = h.now.capture.sourceAfter core)
    (hcores : h'.now.capture.cores = cores) : h'.Turning cores known pids := by
  have hsamples : ∀ core', h'.samplesOf core' =
      h.samplesOf core' ++ if core = core' then [h.now.capture.sampleFor core] else [] := by
    intro core'
    rw [samplesOf, htakings, List.filter_append, List.map_append, samplesOf_taking, samplesOf]
  refine ⟨fun core' hknown => ?_, fun core' hknown => ?_, ?_, ?_, hcores⟩
  · rw [hsource, Capture.turns_sourceAfter, List.getElem?_modify, hh.turns core' hknown, hsamples]
    by_cases heq : core = core'
    · subst heq
      simp [UInt64.ofNat_add]
    · have hne : core.toNat ≠ core'.toNat := fun h => heq (UInt32.toNat_inj.1 h)
      simp [heq, hne]
  · rw [hsamples]
    by_cases heq : core = core'
    · subst heq
      simp [List.range_succ, hh.samples core hknown, hh.pid_sampleFor hknown]
    · simpa [heq] using hh.samples core' hknown
  · rw [htakings]
    exact List.forall_mem_append.2 ⟨hh.takings, List.forall_mem_singleton.2 (hh.cores ▸ hcore)⟩
  · rw [hsource, Capture.pids_sourceAfter, hh.pids]

theorem tick (hh : h.Turning cores known pids) (e : CaptureEvent UInt64) :
    (h.tick e).Turning cores known pids := by
  have hcores : (h.tick e).now.capture.cores = cores := (h.now.after_keeps _).1.trans hh.cores
  rcases h.tick_takes e with ⟨htakings, hsame⟩ | ⟨core, htakings, hcore, hsource⟩
  · have hsamples : ∀ core, (h.tick e).samplesOf core = h.samplesOf core := fun core => by
      rw [samplesOf, htakings, samplesOf]
    refine ⟨fun core hknown => ?_, fun core hknown => ?_, ?_, ?_, hcores⟩
    · rw [hsame.turns, hsamples]
      exact hh.turns core hknown
    · rw [hsamples]
      exact hh.samples core hknown
    · rw [htakings]
      exact hh.takings
    · exact hsame.pids.trans hh.pids
  · exact hh.of_taken htakings hcore hsource hcores

theorem pass (hh : h.Turning cores known pids) (events : List (CaptureEvent UInt64)) :
    (h.pass events).Turning cores known pids := by
  induction events generalizing h with
  | nil => exact hh
  | cons e events ih => exact ih (hh.tick e)

/-- Where there are tasks, the number of a sample says which of them it has. -/
theorem getElem?_samplesOf (hh : h.Turning cores known pids) (hcores : cores ≤ known)
    (hpids : pids ≠ []) {core : UInt32} {k : Nat} {s : Sample}
    (hs : (h.samplesOf core)[k]? = some s) :
    pids[(k % UInt64.size / samplesPerTask + core.toNat) % pids.length]? = some s.pid := by
  have hknown : core.toNat < known := by
    obtain ⟨t, ht, rfl⟩ := List.mem_map.1 (List.mem_of_getElem? hs)
    obtain ⟨hmem, hcore⟩ := List.mem_filter.1 ht
    have hlt := hh.takings t hmem
    rw [of_decide_eq_true hcore] at hlt
    exact Nat.lt_of_lt_of_le hlt hcores
  obtain ⟨hlt, rfl⟩ := List.getElem?_eq_some_iff.1 hs
  have hpid : TaskCounters.pidAt pids core (UInt64.ofNat k) = ((h.samplesOf core)[k]).pid := by
    have hmap := congrArg (·[k]?) (hh.samples core hknown)
    simpa [hlt, eq_comm] using hmap
  rw [← hpid, ← TaskCounters.getElem?_pidAt hpids, UInt64.toNat_ofNat']

/-- The samples that a task has at a stretch. -/
theorem getElem?_of_mem_block (hh : h.Turning cores known pids) (hcores : cores ≤ known)
    (hpids : pids ≠ []) {core : UInt32} {t : Nat} {s : Sample}
    (hs : s ∈ ((h.samplesOf core).drop (64 * t)).take 64) :
    pids[(t % (UInt64.size / 64) + core.toNat) % pids.length]? = some s.pid := by
  obtain ⟨i, hi⟩ := List.mem_iff_getElem?.1 hs
  rw [List.getElem?_take] at hi
  split at hi
  · next hlt =>
    rw [List.getElem?_drop] at hi
    -- the count wraps at a multiple of the samples of a turn
    have hturn : (64 * t + i) % UInt64.size / samplesPerTask = t % (UInt64.size / 64) := by
      simp only [UInt64.size, samplesPerTask]
      omega
    rw [← hturn]
    exact hh.getElem?_samplesOf hcores hpids hi
  · cases hi

end Turning

/-! ## What is counted -/

theorem samplesOf_tick_overflow (h : Timeline TaskCounters) {core : UInt32}
    (htakes : (h.now.capture.overflow core).1 = .recorded ∨
      (h.now.capture.overflow core).1 = .published) :
    (h.tick (.pipeline (.overflow core))).samplesOf core =
      h.samplesOf core ++ [h.now.capture.sampleFor core] := by
  have hstep := h.samplesOf_step (.pipeline (.overflow core)) core
  rw [h.taken_of_takes htakes, samplesOf_taking, if_pos rfl] at hstep
  exact hstep

theorem samplesOf_tick_of_not_taken (h : Timeline TaskCounters) {e : CaptureEvent UInt64}
    {core : UInt32} (he : e = .pipeline (.overflow core) →
      (h.now.capture.overflow core).1 = .missed ∨ (h.now.capture.overflow core).1 = .ignored) :
    (h.tick e).samplesOf core = h.samplesOf core := by
  rw [tick, samplesOf_step, List.filter_eq_nil_iff.2, List.map_nil, List.append_nil]
  intro t ht hcore
  obtain ⟨core', hevent, rfl⟩ := eq_taking_of_mem_taken ht
  obtain rfl : core' = core := of_decide_eq_true hcore
  rw [hevent, h.taken_of_not_takes (he (CaptureEvent.map_eq_overflow hevent))] at ht
  cases ht

/-! ## Buffers -/

theorem Unmixed.pass {capacity : Nat} {h : Timeline TaskCounters} (hh : h.Unmixed)
    (hbalanced : h.now.Balanced capacity) (events : List (CaptureEvent UInt64)) :
    (h.pass events).Unmixed := by
  induction events generalizing h with
  | nil => exact hh
  | cons e events ih => exact ih (hh.step hbalanced _) (hbalanced.after _)

theorem Unmixed.sublist_samplesOf {σ : Type} {h : Timeline σ} (hh : h.Unmixed) {b : Buffer}
    (hb : b ∈ h.now.drained ++ h.now.capture.pool.full ++ h.now.capture.activeBuffers) :
    b.samples.Sublist (h.samplesOf b.core) := by
  rcases List.mem_append.1 hb with hb | hb
  · obtain ⟨run, hrun⟩ := hh.completed b hb
    exact hrun.sublist_samplesOf
  · exact (hh.active b hb).sublist_samplesOf

/-- **Tasks take turns.**  On any number of cores, all of which the counters know, and after any
events:

* the sample of a core with number `k` has the task that stands `k / 64 + core` places from the
  first, going round, until the count of the core wraps;
* the samples from number `64 * t` to number `64 * t + 63` have one task, also where the count has
  wrapped, and the next ones have the next task;
* an overflow that is recorded or published takes the next sample of its core;
* a missed overflow, an ignored one and what happens to other cores leave the samples of a core as
  they are, and the process of its next one;
* every buffer holds samples of its core, in the order in which they were taken. -/
theorem tasks_take_turns (capacity : Nat) {cores known : Nat} (hcores : cores ≤ known)
    (control : Control) {pids : List UInt32} (hpids : pids ≠ [])
    (events : List (CaptureEvent UInt64)) :
    let start : Pipeline TaskCounters := .new capacity cores control (.new known pids)
    let h := (Timeline.new start).pass events
    let c := h.now.capture
    (∀ core k s, (h.samplesOf core)[k]? = some s → k < UInt64.size →
        pids[(k / 64 + core.toNat) % pids.length]? = some s.pid) ∧
      (∀ core t, ∀ s ∈ ((h.samplesOf core).drop (64 * t)).take 64,
        pids[(t % (UInt64.size / 64) + core.toNat) % pids.length]? = some s.pid) ∧
      (∀ core, (c.overflow core).1 = .recorded ∨ (c.overflow core).1 = .published →
        (h.tick (.pipeline (.overflow core))).samplesOf core =
          h.samplesOf core ++ [c.sampleFor core]) ∧
      (∀ e core, (e = .pipeline (.overflow core) →
          (c.overflow core).1 = .missed ∨ (c.overflow core).1 = .ignored) →
        (h.tick e).samplesOf core = h.samplesOf core ∧
          (core.toNat < known →
            ((h.tick e).now.capture.sampleFor core).pid = (c.sampleFor core).pid)) ∧
      ∀ b ∈ h.now.drained ++ c.pool.full ++ c.activeBuffers,
        b.samples.Sublist (h.samplesOf b.core) := by
  intro start h c
  have hh : h.Turning cores known pids :=
    (Turning.new capacity cores known control pids).pass events
  have hunmixed : h.Unmixed := (Unmixed.new capacity cores control _).pass (.new ..) events
  refine ⟨fun core k s hs hk => ?_, fun core t s hs => hh.getElem?_of_mem_block hcores hpids hs,
    fun core htakes => h.samplesOf_tick_overflow htakes, fun e core he => ?_,
    fun b hb => hunmixed.sublist_samplesOf hb⟩
  · have hpid := hh.getElem?_samplesOf hcores hpids hs
    rw [Nat.mod_eq_of_lt hk] at hpid
    exact hpid
  · have hsame := h.samplesOf_tick_of_not_taken he
    refine ⟨hsame, fun hknown => ?_⟩
    rw [(hh.tick e).pid_sampleFor hknown, hh.pid_sampleFor hknown, hsame]

/-- Core 1 takes a sample that the second start throws away, and 64 more after a stop.  Then there is
no buffer for core 0. -/
def restartedTurns : List (CaptureEvent UInt64) :=
  [.pipeline (.overflow 1), .pipeline .start, .pipeline (.overflow 1), .pipeline .start,
    .pipeline (.elapse 700), .pipeline (.overflow 0), .pipeline .stop, .pipeline (.overflow 1),
    .pipeline .start] ++ List.replicate 64 (.pipeline (.overflow 1)) ++ [.pipeline (.overflow 0)]

theorem tasks_take_turns_restarted :
    let pids : List UInt32 := [10, 20]
    let start : Pipeline TaskCounters := .new 2 2 (.new 500 []) (.new 2 pids)
    let h := (Timeline.new start).pass restartedTurns
    pids ≠ [] ∧ (h.now.capture.overflow 0).1 = .missed ∧ (h.samplesOf 0).length = 1 ∧
      (h.samplesOf 1).length = 65 ∧
      ∀ core k s, (h.samplesOf core)[k]? = some s → k < UInt64.size →
        pids[(k / 64 + core.toNat) % 2]? = some s.pid := by
  have hpids : ([10, 20] : List UInt32) ≠ [] := by decide
  obtain ⟨hturns, -⟩ := tasks_take_turns 2 (Nat.le_refl 2) (.new 500 []) hpids restartedTurns
  exact ⟨hpids, by decide +kernel, by decide +kernel, by decide +kernel, hturns⟩

end Timeline

end CounterTrace
