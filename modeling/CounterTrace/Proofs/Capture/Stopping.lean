import CounterTrace.Proofs.Capture.Conservation
import CounterTrace.Proofs.Capture.Interleaving

/-!
# Stopping while cores overflow

A stop halts the capture, flushes one slot after the other and closes the pool last.  Overflows may
be under way all the time, each at any of its steps.  None of them leaves anything behind: once all
have returned and the stop has, every slot is empty, every sample that was taken is in a buffer that
is completed or was drained, and no buffer is missing from the pool.

A slot that the stop has passed stays empty.  An overflow gets a free buffer only while it holds the
lock on a slot that the stop has not passed, for it has seen the capture running under that lock.
So the pool is still open at that moment, and if it gets no buffer then there is none.

    s.Orderly n before            buffers, samples and locks are where the steps need them
    s.Orderly n before → (s.move m).Orderly n before                              (Orderly.move)
    any overflows, any stop, any moves                                   (stopped_while_overflowing)
-/

namespace CounterTrace

/-! ## Samples with their cores -/

/-- The samples of a buffer, each with the core of the buffer. -/
def Buffer.filed (b : Buffer) : List (UInt32 × Sample) := b.samples.map fun s => (b.core, s)

/-- The sample that an overflow put into a buffer, with the core of the overflow. -/
def Call.taken (call : Call) : List (UInt32 × Sample) :=
  call.phase.taken.map fun s => (call.core, s)

/-- How often a sample of a core is in buffers. -/
def fileCount (x : UInt32 × Sample) (bs : List Buffer) : Nat := (bs.flatMap Buffer.filed).count x

section
variable (x : UInt32 × Sample)

@[simp]
theorem fileCount_nil : fileCount x [] = 0 := rfl

@[simp]
theorem fileCount_append (bs bs' : List Buffer) :
    fileCount x (bs ++ bs') = fileCount x bs + fileCount x bs' := by
  simp [fileCount]

theorem fileCount_perm {bs bs' : List Buffer} (h : bs.Perm bs') :
    fileCount x bs = fileCount x bs' :=
  (h.flatMap_right _).count_eq x

theorem fileCount_of_samples_eq_nil {b : Buffer} (h : b.samples = []) : fileCount x [b] = 0 := by
  simp [fileCount, Buffer.filed, h]

theorem fileCount_push {b : Buffer} (h : b.samples.length < bufferCapacity) (s : Sample) :
    fileCount x [b.push s] = fileCount x [b] + [(b.core, s)].count x := by
  simp [fileCount, Buffer.filed, Buffer.samples_push (Buffer.isFull_eq_false_iff.2 h)]

end

/-! ## One step of an overflow -/

/-- Whether a stop has flushed a slot, or is past all of them. -/
def StopPhase.Passed : StopPhase → Nat → Prop
  | calling, _ => False
  | flushing n, i => i < n
  | handing n _, i => i ≤ n
  | returned, _ => True

/-- Active buffers are of their cores and have room, and are in slots that are not yet passed. -/
def SlotsFit (active : List (Option Buffer)) (stop : StopPhase) : Prop :=
  ∀ (i : Nat) (b : Buffer), active[i]? = some (some b) →
    b.core.toNat = i ∧ b.samples.length < bufferCapacity ∧ ¬ stop.Passed i

/-- A slot that is written, with a fitting buffer or with none, leaves the slots fitting. -/
theorem SlotsFit.set {active : List (Option Buffer)} {stop : StopPhase}
    (hslots : SlotsFit active stop) {i : Nat} {slot : Option Buffer} (hslot : ∀ b ∈ slot,
      b.core.toNat = i ∧ b.samples.length < bufferCapacity ∧ ¬ stop.Passed i) :
    SlotsFit (active.set i slot) stop := by
  intro j b hj
  rcases getElem?_set_cases hj with ⟨rfl, hb⟩ | ⟨-, hj⟩
  · exact hslot b hb.symm
  · exact hslots j b hj

/-- A sample that is missed is not missed because the pool is closed. -/
def CallResult.FoundOpen : CallResult → Prop
  | missed why => why = .exhausted
  | _ => True

namespace Call

/-- What an overflow relies on at its next step. -/
def Placed (active : List (Option Buffer)) (stop : StopPhase) (call : Call) : Prop :=
  match call.phase with
  | .counting | .checkingStatus | .checkingPool => True
  | .readingPeriod | .waiting => ∃ slot, active[call.core.toNat]? = some slot
  | .checkingAgain => active[call.core.toNat]? = some none
  | .acquiring | .taking => active[call.core.toNat]? = some none ∧ ¬ stop.Passed call.core.toNat
  | .sampling => ∃ b, active[call.core.toNat]? = some (some b)
  | .publishing .. => True
  | .missing why => why = .exhausted
  | .arming r | .returned r => r.FoundOpen

/-- What others do leaves an overflow placed if they keep the number of slots and, while it holds
the lock, its slot. -/
theorem Placed.mono {active active' : List (Option Buffer)} {stop stop' : StopPhase} {call : Call}
    (h : call.Placed active stop) (hlength : active'.length = active.length)
    (hslot : call.phase.holds = true → ∀ slot, active[call.core.toNat]? = some slot →
      active'[call.core.toNat]? = some slot ∧
        (stop'.Passed call.core.toNat → stop.Passed call.core.toNat)) :
    call.Placed active' stop' := by
  have hexists : (∃ slot, active[call.core.toNat]? = some slot) →
      ∃ slot, active'[call.core.toNat]? = some slot := by
    rintro ⟨slot, hget⟩
    obtain ⟨hlt, -⟩ := List.getElem?_eq_some_iff.1 hget
    exact ⟨_, List.getElem?_eq_getElem (hlength ▸ hlt)⟩
  unfold Placed at h ⊢
  cases hphase : call.phase <;> rw [hphase] at h hslot
  case readingPeriod => exact hexists h
  case waiting => exact hexists h
  case checkingAgain => exact (hslot rfl _ h).1
  case acquiring =>
    obtain ⟨hget, hpassed⟩ := h
    obtain ⟨hget', himp⟩ := hslot rfl _ hget
    exact ⟨hget', fun h' => hpassed (himp h')⟩
  case taking =>
    obtain ⟨hget, hpassed⟩ := h
    obtain ⟨hget', himp⟩ := hslot rfl _ hget
    exact ⟨hget', fun h' => hpassed (himp h')⟩
  case sampling =>
    obtain ⟨b, hget⟩ := h
    exact ⟨b, (hslot rfl _ hget).1⟩
  all_goals exact h

/-- What one step of an overflow does to the capture and to the overflow. -/
structure Advances {σ : Type} (stop : StopPhase) (call call' : Call) (c c' : Capture σ) : Prop where
  core : call'.core = call.core
  length : c'.active.length = c.active.length
  others : ∀ i, (call.phase.holds = true → i ≠ call.core.toNat) → c'.active[i]? = c.active[i]?
  placed : call'.Placed c'.active stop
  slots : SlotsFit c'.active stop
  total : c'.pool.free.length + c'.pool.full.length + c'.activeBuffers.length +
      call'.phase.inHand.length =
    c.pool.free.length + c.pool.full.length + c.activeBuffers.length + call.phase.inHand.length
  filed : ∀ x, fileCount x (c'.pool.full ++ c'.activeBuffers ++ call'.phase.inHand) +
      call.taken.count x =
    fileCount x (c.pool.full ++ c.activeBuffers ++ call.phase.inHand) + call'.taken.count x
  status : c'.control.status = c.control.status
  shutdown : c'.pool.shutdown = c.pool.shutdown
  /-- Only an overflow that waits for the lock gets it. -/
  lock : call'.phase.holds = false ∨ call.phase.holds = true ∨ call.phase = .waiting

variable {σ : Type} {stop : StopPhase} {call : Call} {c : Capture σ}

/-- A step that touches no buffer. -/
theorem Advances.quiet {period : UInt32} {phase : Phase} {control : Control} {source : σ}
    (hslots : SlotsFit c.active stop) (hstatus : control.status = c.control.status)
    (hinHand : phase.inHand = call.phase.inHand) (htaken : phase.taken = call.phase.taken)
    (hplaced : Placed c.active stop ⟨call.core, period, phase⟩)
    (hlock : phase.holds = false ∨ call.phase.holds = true ∨ call.phase = .waiting) :
    Advances stop call ⟨call.core, period, phase⟩ c
      { c with control := control, source := source } where
  core := rfl
  length := rfl
  others _ _ := rfl
  placed := hplaced
  slots := hslots
  total := by rw [hinHand]; rfl
  filed x := by rw [hinHand, taken, taken, htaken]; rfl
  status := hstatus
  shutdown := rfl
  lock := hlock

/-- A step of an overflow that has the lock and exchanges what is in its slot. -/
theorem Advances.write {call' : Call} {c' : Capture σ} {slot slot' : Option Buffer}
    (hslots : SlotsFit c.active stop) (hcore : call'.core = call.core)
    (hholds : call.phase.holds = true) (hslot : c.active[call.core.toNat]? = some slot)
    (hactive : c'.active = c.active.set call.core.toNat slot')
    (hfit : ∀ b ∈ slot', b.core.toNat = call.core.toNat ∧ b.samples.length < bufferCapacity ∧
      ¬ stop.Passed call.core.toNat)
    (hplaced : call'.Placed c'.active stop) (hfull : c'.pool.full = c.pool.full)
    (htotal : c'.pool.free.length + slot'.toList.length + call'.phase.inHand.length =
      c.pool.free.length + slot.toList.length + call.phase.inHand.length)
    (hfiled : ∀ x, fileCount x (slot'.toList ++ call'.phase.inHand) + call.taken.count x =
      fileCount x (slot.toList ++ call.phase.inHand) + call'.taken.count x)
    (hstatus : c'.control.status = c.control.status)
    (hshutdown : c'.pool.shutdown = c.pool.shutdown) :
    Advances stop call call' c c' := by
  have hperm := filterMap_set_perm hslot slot'
  refine ⟨hcore, by rw [hactive, List.length_set], fun i hi => ?_, hplaced, ?_, ?_, fun x => ?_,
    hstatus, hshutdown, .inr (.inl hholds)⟩
  · rw [hactive]
    exact List.getElem?_set_ne (hi hholds).symm
  · rw [hactive]
    exact hslots.set hfit
  · have hlength := hperm.length_eq
    rw [List.length_append, List.length_append] at hlength
    rw [Capture.activeBuffers, hactive, hfull, Capture.activeBuffers]
    omega
  · have hcount := fileCount_perm x hperm
    have hfiled := hfiled x
    rw [Capture.activeBuffers, hactive, hfull, Capture.activeBuffers]
    simp only [fileCount_append] at hcount hfiled ⊢
    omega

variable [CounterSource σ]

/-- Every step of an overflow that is placed is one of these. -/
theorem next_advances (hplaced : call.Placed c.active stop) (hslots : SlotsFit c.active stop)
    (hrunning : c.control.isRunning = true → stop = .calling)
    (hclosed : c.pool.shutdown = true → stop = .returned) :
    Advances stop call (call.next c).1 c (call.next c).2 := by
  obtain ⟨core, period, phase⟩ := call
  unfold Placed at hplaced
  cases phase with
  | counting => exact .quiet hslots rfl rfl rfl trivial (.inl rfl)
  | checkingStatus =>
    simp only [next]
    cases c.control.isRunning with
    | true => exact .quiet hslots rfl rfl rfl trivial (.inl rfl)
    | false => exact .quiet hslots rfl rfl rfl trivial (.inl rfl)
  | checkingPool =>
    simp only [next]
    cases c.pool.shutdown with
    | true => exact .quiet hslots rfl rfl rfl trivial (.inl rfl)
    | false =>
      cases hslot : c.active[core.toNat]? with
      | none => exact .quiet hslots rfl rfl rfl trivial (.inl rfl)
      | some slot => exact .quiet hslots rfl rfl rfl ⟨slot, hslot⟩ (.inl rfl)
  | readingPeriod => exact .quiet hslots rfl rfl rfl hplaced (.inl rfl)
  | waiting =>
    obtain ⟨slot, hslot⟩ := hplaced
    simp only [next, hslot]
    cases slot with
    | none => exact .quiet hslots rfl rfl rfl hslot (.inr (.inr rfl))
    | some b => exact .quiet hslots rfl rfl rfl ⟨b, hslot⟩ (.inr (.inr rfl))
  | checkingAgain =>
    simp only [next]
    cases hstatus : c.control.isRunning with
    | true =>
      obtain rfl := hrunning hstatus
      exact .quiet hslots rfl rfl rfl ⟨hplaced, id⟩ (.inr (.inl rfl))
    | false => exact .quiet hslots rfl rfl rfl trivial (.inl rfl)
  | acquiring =>
    simp only [next]
    cases hshutdown : c.pool.shutdown with
    | true =>
      obtain rfl := hclosed hshutdown
      exact absurd trivial hplaced.2
    | false => exact .quiet hslots rfl rfl rfl hplaced (.inr (.inl rfl))
  | taking =>
    obtain ⟨hslot, hpassed⟩ := hplaced
    obtain ⟨hlt, -⟩ := List.getElem?_eq_some_iff.1 hslot
    cases hfree : c.pool.free with
    | nil =>
      simp only [next, hfree]
      exact .quiet hslots rfl rfl rfl rfl (.inr (.inl rfl))
    | cons b rest =>
      simp only [next, hfree]
      refine .write hslots rfl rfl hslot rfl ?_ ⟨_, List.getElem?_set_self hlt⟩ rfl ?_ ?_ rfl rfl
      · rintro _ ⟨⟩
        exact ⟨rfl, by simp [bufferCapacity], hpassed⟩
      · simp [Phase.inHand, hfree]
      · simp [Phase.inHand, fileCount_of_samples_eq_nil _ (b.samples_reset core), taken,
          Phase.taken]
  | sampling =>
    obtain ⟨b, hslot⟩ := hplaced
    obtain ⟨hcore, hroom, hpassed⟩ := hslots _ _ hslot
    simp only [next, hslot]
    generalize Capture.snapshot core period c.source = reading
    obtain ⟨sample, source⟩ := reading
    have hof : b.core = core := UInt32.toNat_inj.1 hcore
    have hcount : ∀ x, fileCount x [b.push sample] = fileCount x [b] + [(core, sample)].count x :=
      fun x => hof ▸ fileCount_push x hroom sample
    cases hfull : (b.push sample).isFull with
    | true =>
      exact .write hslots rfl rfl hslot rfl (fun b hb => absurd hb (Option.not_mem_none b)) trivial
        rfl rfl (fun x => by simpa [Phase.inHand, taken, Phase.taken] using hcount x) rfl rfl
    | false =>
      refine .write hslots rfl rfl hslot rfl ?_ trivial rfl rfl (fun x => ?_) rfl rfl
      · rintro _ ⟨⟩
        exact ⟨hcore ▸ congrArg UInt32.toNat (b.core_push sample),
          Buffer.isFull_eq_false_iff.1 hfull, hpassed⟩
      · simpa [Phase.inHand, taken, Phase.taken, CallResult.taken] using hcount x
  | publishing b s =>
    refine ⟨rfl, rfl, fun _ _ => rfl, trivial, hslots, ?_, fun x => ?_, rfl, rfl,
      .inr (.inl rfl)⟩
    · simp only [next, Pool.publish, Phase.inHand, List.length_append, List.length_singleton,
        List.length_nil, Capture.activeBuffers]
      omega
    · simp only [next, Pool.publish, Phase.inHand, fileCount_append, fileCount_nil, taken,
        Phase.taken, CallResult.taken, Capture.activeBuffers]
      omega
  | missing why => exact .quiet hslots rfl rfl rfl hplaced (.inr (.inl rfl))
  | arming r => exact .quiet hslots rfl rfl rfl hplaced (.inl rfl)
  | returned r => exact .quiet hslots rfl rfl rfl hplaced (.inl rfl)

end Call

/-! ## The invariant -/

/-- A buffer that is flushed is given back if it is empty, and else completed. -/
theorem Capture.flushBuffer_cases (pool : Pool) (b : Buffer) :
    flushBuffer pool b = pool.release b ∧ b.samples = [] ∨ flushBuffer pool b = pool.publish b := by
  unfold flushBuffer
  cases hempty : b.isEmpty with
  | false => exact .inr rfl
  | true =>
    refine .inl ⟨rfl, List.length_eq_zero_iff.1 ?_⟩
    rw [b.length_samples]
    exact beq_iff_eq.1 hempty

namespace Scene

variable {σ : Type}

/-- Buffers that an overflow or the stop has in hand. -/
def inHand (s : Scene σ) : List Buffer :=
  s.calls.flatMap (fun call => call.phase.inHand) ++ s.stop.inHand

/-- The buffers that hold samples of this run. -/
def filled (s : Scene σ) : List Buffer :=
  s.pipeline.drained ++ (s.capture.pool.full ++ s.capture.activeBuffers ++ s.inHand)

/-- Buffers, samples and locks are where the next steps need them. -/
structure Orderly (n : Nat) (before : List (UInt32 × Sample)) (s : Scene σ) : Prop where
  total : s.capture.pool.free.length + s.capture.pool.full.length +
    s.capture.activeBuffers.length + s.inHand.length + s.pipeline.held.length = n
  filed : ∀ x, fileCount x s.filled = before.count x + (s.calls.flatMap Call.taken).count x
  slots : SlotsFit s.capture.active s.stop
  placed : ∀ (k : Nat) (call : Call), s.calls[k]? = some call →
    call.Placed s.capture.active s.stop
  /-- No two overflows have the same lock. -/
  owner : ∀ (j k : Nat) (call call' : Call), s.calls[j]? = some call → s.calls[k]? = some call' →
    call.phase.holds = true → call'.phase.holds = true → call.core = call'.core → j = k
  running : s.capture.control.isRunning = true → s.stop = .calling
  closed : s.capture.pool.shutdown = true → s.stop = .returned

namespace Orderly

/-- Before any move the order is that of the pipeline. -/
theorem new {n : Nat} {p : Pipeline σ} (hp : p.Balanced n) (hopen : p.capture.pool.shutdown = false)
    (callers : List UInt32) :
    (Scene.new p callers).Orderly n
      ((p.drained ++ p.capture.pool.full ++ p.capture.activeBuffers).flatMap Buffer.filed) := by
  have hcounting : ∀ call ∈ (Scene.new p callers).calls, call.phase = .counting := by
    intro call hcall
    obtain ⟨core, -, rfl⟩ := List.mem_map.1 hcall
    rfl
  have hhand : (Scene.new p callers).inHand = [] := by
    rw [inHand, List.append_eq_nil_iff, List.flatMap_eq_nil_iff]
    exact ⟨fun call hcall => by rw [hcounting call hcall]; rfl, rfl⟩
  have htaken : (Scene.new p callers).calls.flatMap Call.taken = [] := by
    rw [List.flatMap_eq_nil_iff]
    intro call hcall
    rw [Call.taken, hcounting call hcall]
    rfl
  refine ⟨?_, fun x => ?_, fun i b h => ?_, fun k call hk => ?_, ?_, fun _ => rfl, fun h => ?_⟩
  · rw [hhand]
    exact hp.total
  · rw [filled, hhand, htaken, List.append_nil, List.count_nil, ← List.append_assoc]
    rfl
  · have hfilling := hp.active i b h
    exact ⟨hfilling.core, hfilling.room, id⟩
  · unfold Call.Placed
    rw [hcounting call (List.mem_of_getElem? hk)]
    trivial
  · intro j k call call' hj hk hholds
    rw [hcounting call (List.mem_of_getElem? hj)] at hholds
    cases hholds
  · cases hopen.symm.trans h

variable {n : Nat} {before : List (UInt32 × Sample)} {s : Scene σ}

section
variable (hs : s.Orderly n before)
include hs

/-- An overflow that advances keeps the order, unless it should have waited. -/
theorem of_call {k : Nat} {call call' : Call} {c' : Capture σ} (hk : s.calls[k]? = some call)
    (hwait : ¬ (call.phase = .waiting ∧ s.isLocked call.core.toNat = true))
    (hadv : Call.Advances s.stop call call' s.capture c') :
    ({ s.withCapture c' with calls := s.calls.set k call' } : Scene σ).Orderly n before := by
  have hhand := flatMap_set_perm hk (fun call => call.phase.inHand) call'
  have htaken := flatMap_set_perm hk Call.taken call'
  -- who has just got the lock had it already, or has found it free
  have hnew : ∀ (j : Nat) (a : Call), j ≠ k → s.calls[j]? = some a → a.phase.holds = true →
      call'.phase.holds = true → a.core ≠ call'.core := by
    intro j a hjk hj ha hcall' heq
    rw [hadv.core] at heq
    rcases hadv.lock with hfree | hcall | hphase
    · cases hfree.symm.trans hcall'
    · exact hjk (hs.owner j k a call hj hk ha hcall heq)
    · refine hwait ⟨hphase, List.any_eq_true.2 ⟨a, List.mem_of_getElem? hj, ?_⟩⟩
      simp [ha, heq]
  refine ⟨?_, fun x => ?_, hadv.slots, fun j a hj => ?_, fun i j a b hi hj ha hb heq => ?_,
    fun h => hs.running ?_, fun h => hs.closed (hadv.shutdown ▸ h)⟩
  · have hlength := hhand.length_eq
    have hbefore := hs.total
    have hstep := hadv.total
    simp only [capture, withCapture, inHand, List.length_append] at hlength hbefore hstep ⊢
    omega
  · have hlength := fileCount_perm x hhand
    have hcount := htaken.count_eq x
    have hbefore := hs.filed x
    have hstep := hadv.filed x
    simp only [capture, withCapture, filled, inHand, fileCount_append, List.count_append]
      at hlength hcount hbefore hstep ⊢
    omega
  · rcases getElem?_set_cases hj with ⟨-, rfl⟩ | ⟨hjk, hj⟩
    · exact hadv.placed
    · refine (hs.placed j a hj).mono hadv.length fun hholds slot hslot => ⟨?_, id⟩
      -- the slot of `a` is not the one that is written, for both have the lock of theirs
      have hother : call.phase.holds = true → a.core.toNat ≠ call.core.toNat :=
        fun hcall heq => hjk (hs.owner j k a call hj hk hholds hcall (UInt32.toNat_inj.1 heq))
      exact (hadv.others _ hother).trans hslot
  · rcases getElem?_set_cases hi with ⟨rfl, rfl⟩ | ⟨hik, hi'⟩ <;>
      rcases getElem?_set_cases hj with ⟨rfl, rfl⟩ | ⟨hjk, hj'⟩
    · rfl
    · exact absurd heq.symm (hnew j b hjk hj' hb ha)
    · exact absurd heq (hnew i a hik hi' ha hb)
    · exact hs.owner i j a b hi' hj' ha hb heq
  · unfold Control.isRunning at h ⊢
    exact hadv.status ▸ h

theorem moveCall [CounterSource σ] (k : Nat) : (s.moveCall k).Orderly n before := by
  unfold Scene.moveCall
  cases hk : s.calls[k]? with
  | none => exact hs
  | some call =>
    by_cases hwait : call.phase = .waiting ∧ s.isLocked call.core.toNat = true
    · simp only [hwait, and_self, if_true]
      exact hs
    · simp only [if_neg hwait]
      exact hs.of_call hk hwait
        (Call.next_advances (hs.placed k call hk) hs.slots hs.running hs.closed)

/-- A move of the stop keeps the order if it exchanges buffers only between the slots, the pool and
its hand, adds none to a slot, and neither changes nor passes a slot that is locked. -/
theorem of_stop {c' : Capture σ} {stop' : StopPhase}
    (htotal : c'.pool.free.length + c'.pool.full.length + c'.activeBuffers.length +
        stop'.inHand.length =
      s.capture.pool.free.length + s.capture.pool.full.length + s.capture.activeBuffers.length +
        s.stop.inHand.length)
    (hfiled : ∀ x, fileCount x (c'.pool.full ++ c'.activeBuffers ++ stop'.inHand) =
      fileCount x (s.capture.pool.full ++ s.capture.activeBuffers ++ s.stop.inHand))
    (hlength : c'.active.length = s.capture.active.length)
    (hslots : ∀ (i : Nat) (b : Buffer), c'.active[i]? = some (some b) →
      s.capture.active[i]? = some (some b) ∧ (stop'.Passed i → s.stop.Passed i))
    (hlocked : ∀ (i : Nat) (slot : Option Buffer), s.isLocked i = true →
      s.capture.active[i]? = some slot →
        c'.active[i]? = some slot ∧ (stop'.Passed i → s.stop.Passed i))
    (hrunning : c'.control.isRunning = true → stop' = .calling)
    (hclosed : c'.pool.shutdown = true → stop' = .returned) :
    ({ s.withCapture c' with stop := stop' } : Scene σ).Orderly n before := by
  refine ⟨?_, fun x => ?_, fun i b h => ?_, fun k call hk => ?_, hs.owner, hrunning, hclosed⟩
  · have hbefore := hs.total
    simp only [capture, withCapture, inHand, List.length_append] at hbefore htotal ⊢
    omega
  · have hbefore := hs.filed x
    have hstep := hfiled x
    simp only [capture, withCapture, filled, inHand, fileCount_append] at hbefore hstep ⊢
    omega
  · obtain ⟨hget, hpassed⟩ := hslots i b h
    obtain ⟨hcore, hroom, hnot⟩ := hs.slots i b hget
    exact ⟨hcore, hroom, fun h' => hnot (hpassed h')⟩
  · refine (hs.placed k call hk).mono hlength fun hholds slot hslot => hlocked _ slot ?_ hslot
    exact List.any_eq_true.2 ⟨call, List.mem_of_getElem? hk, by simp [hholds]⟩

theorem halt (hstop : s.stop = .calling) :
    ({ s.withCapture { s.capture with control := s.capture.control.halt } with
        stop := .flushing 0 } : Scene σ).Orderly n before := by
  refine hs.of_stop (by rw [hstop]; rfl) (fun x => by rw [hstop]; rfl) rfl
    (fun i b h => ⟨h, fun h' => absurd h' (Nat.not_lt_zero i)⟩)
    (fun i slot _ h => ⟨h, fun h' => absurd h' (Nat.not_lt_zero i)⟩)
    (fun h => absurd h Bool.false_ne_true) fun h => ?_
  cases hstop.symm.trans (hs.closed h)

/-- While slots are flushed the capture does not run, and the pool is open. -/
theorem halted_and_open (hcalling : s.stop ≠ .calling) (hreturned : s.stop ≠ .returned) :
    ¬ s.capture.control.isRunning = true ∧ ¬ s.capture.pool.shutdown = true :=
  ⟨fun h => hcalling (hs.running h), fun h => hreturned (hs.closed h)⟩

section
variable {i : Nat} (hstop : s.stop = .flushing i)
include hstop

omit hs in
theorem passed_iff (j : Nat) : s.stop.Passed j ↔ j < i := by
  rw [hstop]
  exact Iff.rfl

/-- Once there are no more slots, all of them are passed. -/
theorem close (hget : s.capture.active[i]? = none) :
    ({ s.withCapture { s.capture with pool := s.capture.pool.close } with
        stop := .returned } : Scene σ).Orderly n before := by
  obtain ⟨hhalted, -⟩ := hs.halted_and_open (by simp [hstop]) (by simp [hstop])
  have hlast : ∀ (j : Nat) (slot : Option Buffer), s.capture.active[j]? = some slot →
      s.stop.Passed j := by
    intro j slot hj
    obtain ⟨hlt, -⟩ := List.getElem?_eq_some_iff.1 hj
    have := List.getElem?_eq_none_iff.1 hget
    exact (passed_iff hstop j).2 (by omega)
  exact hs.of_stop (by rw [hstop]; rfl) (fun x => by rw [hstop]; rfl) rfl
    (fun j b h => ⟨h, fun _ => hlast j _ h⟩) (fun j slot _ h => ⟨h, fun _ => hlast j slot h⟩)
    (fun h => absurd h hhalted) fun _ => rfl

/-- A slot that is empty and not locked is passed. -/
theorem pass (hget : s.capture.active[i]? = some none) (hfree : ¬ s.isLocked i = true) :
    ({ s with stop := .flushing (i + 1) } : Scene σ).Orderly n before := by
  obtain ⟨hhalted, hopen⟩ := hs.halted_and_open (by simp [hstop]) (by simp [hstop])
  have hnext : ∀ j, j ≠ i → (StopPhase.flushing (i + 1)).Passed j → s.stop.Passed j := by
    intro j hne hj
    have : j < i + 1 := hj
    exact (passed_iff hstop j).2 (by omega)
  refine hs.of_stop (by rw [hstop]; rfl) (fun x => by rw [hstop]; rfl) rfl
    (fun j b h => ⟨h, hnext j ?_⟩) (fun j slot hj h => ⟨h, hnext j ?_⟩)
    (fun h => absurd h hhalted) fun h => absurd h hopen
  · rintro rfl
    cases hget.symm.trans h
  · rintro rfl
    exact hfree hj

/-- A buffer in a slot that is not locked is taken out. -/
theorem take {b : Buffer} (hget : s.capture.active[i]? = some (some b))
    (hfree : ¬ s.isLocked i = true) :
    ({ s.withCapture { s.capture with active := s.capture.active.set i none } with
        stop := .handing i b } : Scene σ).Orderly n before := by
  obtain ⟨hhalted, hopen⟩ := hs.halted_and_open (by simp [hstop]) (by simp [hstop])
  have hperm := filterMap_set_perm hget none
  have hnext : ∀ j, j ≠ i → (StopPhase.handing i b).Passed j → s.stop.Passed j := by
    intro j hne hj
    have : j ≤ i := hj
    exact (passed_iff hstop j).2 (by omega)
  refine hs.of_stop ?_ (fun x => ?_) List.length_set (fun j b' h => ?_) (fun j slot hj h => ?_)
    (fun h => absurd h hhalted) fun h => absurd h hopen
  · have := hperm.length_eq
    simp only [List.length_append, Option.toList_none, Option.toList_some,
      List.length_nil, List.length_singleton] at this
    simp only [Capture.activeBuffers, StopPhase.inHand, hstop, List.length_nil,
      List.length_singleton]
    omega
  · have := fileCount_perm x hperm
    simp only [fileCount_append, Option.toList_none, Option.toList_some, fileCount_nil] at this
    simp only [Capture.activeBuffers, StopPhase.inHand, hstop, fileCount_append, fileCount_nil]
    omega
  · rcases getElem?_set_cases h with ⟨-, hb⟩ | ⟨hne, h⟩
    · cases hb
    · exact ⟨h, hnext j hne⟩
  · have hne : j ≠ i := by
      rintro rfl
      exact hfree hj
    exact ⟨(List.getElem?_set_ne hne.symm).trans h, hnext j hne⟩

end

/-- A buffer that the stop has taken out goes to the pool. -/
theorem hand {i : Nat} {b : Buffer} (hstop : s.stop = .handing i b) :
    ({ s.withCapture { s.capture with pool := Capture.flushBuffer s.capture.pool b } with
        stop := .flushing (i + 1) } : Scene σ).Orderly n before := by
  obtain ⟨hhalted, hopen⟩ := hs.halted_and_open (by simp [hstop]) (by simp [hstop])
  have hpassed : ∀ j, (StopPhase.flushing (i + 1)).Passed j → s.stop.Passed j := by
    intro j h
    rw [hstop]
    exact Nat.le_of_lt_succ h
  refine hs.of_stop ?_ (fun x => ?_) rfl (fun j b h => ⟨h, hpassed j⟩)
    (fun j slot _ h => ⟨h, hpassed j⟩) (fun h => absurd h hhalted) fun h => absurd ?_ hopen
  · simp only [hstop, StopPhase.inHand, List.length_nil, List.length_singleton]
    rcases Capture.flushBuffer_cases s.capture.pool b with ⟨hflush, -⟩ | hflush
    · simp only [hflush, Pool.release, Capture.activeBuffers, List.length_append,
        List.length_singleton]
      omega
    · simp only [hflush, Pool.publish, Capture.activeBuffers, List.length_append,
        List.length_singleton]
      omega
  · simp only [hstop, StopPhase.inHand, fileCount_append, fileCount_nil]
    rcases Capture.flushBuffer_cases s.capture.pool b with ⟨hflush, hempty⟩ | hflush
    · simp only [hflush, Pool.release, Capture.activeBuffers,
        fileCount_of_samples_eq_nil x hempty]
    · simp only [hflush, Pool.publish, Capture.activeBuffers, fileCount_append]
      omega
  · rcases Capture.flushBuffer_cases s.capture.pool b with ⟨hflush, -⟩ | hflush
    · simp only [hflush] at h
      exact h
    · simp only [hflush] at h
      exact h

theorem moveStop : s.moveStop.Orderly n before := by
  unfold Scene.moveStop
  split
  · next hstop => exact hs.halt hstop
  · next i hstop =>
    split
    · next hget => exact hs.close hstop hget
    · next slot hget =>
      by_cases hlocked : s.isLocked i = true
      · rw [if_pos hlocked]
        exact hs
      · rw [if_neg hlocked]
        cases slot with
        | none => exact hs.pass hstop hget hlocked
        | some b => exact hs.take hstop hget hlocked
  · next i b hstop => exact hs.hand hstop
  · exact hs

/-- What the consumer does keeps the order. -/
theorem of_consumer {p : Pipeline σ} (hactive : p.capture.active = s.pipeline.capture.active)
    (hcontrol : p.capture.control = s.pipeline.capture.control)
    (hshutdown : p.capture.pool.shutdown = s.pipeline.capture.pool.shutdown)
    (htotal : p.capture.pool.free.length + p.capture.pool.full.length + p.held.length =
      s.pipeline.capture.pool.free.length + s.pipeline.capture.pool.full.length +
        s.pipeline.held.length)
    (hqueue : p.drained ++ p.capture.pool.full =
      s.pipeline.drained ++ s.pipeline.capture.pool.full) :
    ({ s with pipeline := p } : Scene σ).Orderly n before := by
  refine ⟨?_, fun x => ?_, ?_, fun k call hk => ?_, hs.owner, fun h => hs.running ?_,
    fun h => hs.closed (hshutdown ▸ h)⟩
  · have hbefore := hs.total
    simp only [capture, inHand, Capture.activeBuffers] at hbefore ⊢
    rw [hactive]
    omega
  · have hbefore := hs.filed x
    have hcount := congrArg (fileCount x) hqueue
    simp only [capture, filled, inHand, Capture.activeBuffers, fileCount_append]
      at hbefore hcount ⊢
    rw [hactive]
    omega
  · rw [capture, hactive]
    exact hs.slots
  · rw [capture, hactive]
    exact hs.placed k call hk
  · rw [capture, hcontrol] at h
    exact h

theorem move [CounterSource σ] (m : Move σ) : (s.move m).Orderly n before := by
  cases m with
  | call k => exact hs.moveCall k
  | stop => exact hs.moveStop
  | drain =>
    obtain ⟨hactive, hcontrol, hqueue, hshutdown, hfree, hlength⟩ := s.pipeline.drain_same
    refine hs.of_consumer hactive hcontrol hshutdown ?_ hqueue
    rw [hfree]
    omega
  | release i =>
    obtain ⟨hactive, hcontrol, hdrained, hfull, hshutdown, hlength⟩ := s.pipeline.release_same i
    refine hs.of_consumer hactive hcontrol hshutdown ?_ (by rw [hdrained, hfull])
    rw [hfull]
    omega
  | elapse source =>
    exact ⟨hs.total, hs.filed, hs.slots, hs.placed, hs.owner, hs.running, hs.closed⟩

theorem run [CounterSource σ] (moves : List (Move σ)) : (s.run moves).Orderly n before := by
  induction moves generalizing s with
  | nil => exact hs
  | cons m moves ih => exact ih (hs.move m)

end

end Orderly

/-! ## When all have returned -/

variable [CounterSource σ]

theorem cores_move (s : Scene σ) (m : Move σ) :
    (s.move m).calls.map Call.core = s.calls.map Call.core := by
  cases m with
  | call k =>
    simp only [move, moveCall]
    cases hk : s.calls[k]? with
    | none => rfl
    | some call =>
      obtain ⟨before, after, hcalls, -, hset⟩ := exists_around hk
      by_cases hwait : call.phase = .waiting ∧ s.isLocked call.core.toNat = true
      · simp only [if_pos hwait]
      · simp only [if_neg hwait]
        rw [hset, hcalls, List.map_append, List.map_append, List.map_cons, List.map_cons,
          call.core_next]
  | stop =>
    simp only [move, moveStop]
    repeat' split
    all_goals rfl
  | drain => rfl
  | release i => rfl
  | elapse source => rfl

theorem cores_run (s : Scene σ) (moves : List (Move σ)) :
    (s.run moves).calls.map Call.core = s.calls.map Call.core := by
  induction moves generalizing s with
  | nil => rfl
  | cons m moves ih => exact (ih (s.move m)).trans (s.cores_move m)

/-- **A stop while cores overflow.**  Let a running capture with an open pool be stopped once while
any number of overflows are under way and the consumer goes on.  In whatever order their steps come,
once the stop and all the overflows have returned:

* every slot is empty;
* the drained and the completed buffers hold the samples that were there before and those that the
  overflows took, each of them once and in a buffer of its core;
* every buffer is free, completed or on loan;
* an overflow whose sample was missed has found the pool open and no buffer in it. -/
theorem stopped_while_overflowing (capacity cores : Nat) (control : Control) (source : σ)
    (events : List (PipelineEvent σ)) (callers : List UInt32) (moves : List (Move σ)) :
    let p := (Pipeline.new capacity cores control source).run events
    let s := (new p callers).run moves
    p.capture.control.isRunning = true → p.capture.pool.shutdown = false →
    s.stop = .returned → (∀ call ∈ s.calls, call.phase.Returned) →
      s.calls.map Call.core = callers ∧
      (∀ slot ∈ s.capture.active, slot = none) ∧
      ((s.pipeline.drained ++ s.capture.pool.full).flatMap Buffer.filed).Perm
        ((p.drained ++ p.capture.pool.full ++ p.capture.activeBuffers).flatMap Buffer.filed ++
          s.calls.flatMap Call.taken) ∧
      s.capture.pool.free.length + s.capture.pool.full.length + s.pipeline.held.length = capacity ∧
      ∀ call ∈ s.calls, ∀ why, call.phase = .returned (.missed why) → why = .exhausted := by
  intro p s hrunning hopen hstop hreturned
  have hp : p.Balanced capacity := (Pipeline.Balanced.new capacity cores control source).run events
  have hs := (Orderly.new hp hopen callers).run moves
  have hslots : ∀ slot ∈ s.capture.active, slot = none := by
    intro slot hslot
    obtain ⟨i, hi⟩ := List.mem_iff_getElem?.1 hslot
    cases slot with
    | none => rfl
    | some b =>
      have hnot := (hs.slots i b hi).2.2
      rw [hstop] at hnot
      exact absurd trivial hnot
  have hactive : s.capture.activeBuffers = [] := List.filterMap_eq_nil_iff.2 hslots
  have hhand : s.inHand = [] := by
    rw [inHand, List.append_eq_nil_iff, List.flatMap_eq_nil_iff, hstop]
    refine ⟨fun call hcall => ?_, rfl⟩
    obtain ⟨result, hphase⟩ := hreturned call hcall
    rw [hphase]
    rfl
  refine ⟨?_, hslots, ?_, ?_, fun call hcall why hphase => ?_⟩
  · rw [cores_run, new, List.map_map]
    exact List.map_id _
  · rw [List.perm_iff_count]
    intro x
    have hfiled := hs.filed x
    rw [filled, hactive, hhand, List.append_nil, List.append_nil] at hfiled
    rw [List.count_append]
    exact hfiled
  · have htotal := hs.total
    rw [hactive, hhand] at htotal
    exact htotal
  · obtain ⟨k, hk⟩ := List.mem_iff_getElem?.1 hcall
    have hplaced := hs.placed k call hk
    unfold Call.Placed at hplaced
    rw [hphase] at hplaced
    exact hplaced

/-- Two cores and one buffer: the first overflow is about to take the buffer when the capture is
halted, the second finds none left, and the third gets its slot only after it was flushed. -/
@[irreducible]
def narrowRace : List (Move SteadyCounters) :=
  List.replicate 7 (.call 0) ++ List.replicate 5 (.call 2) ++ List.replicate 7 (.call 1) ++
    [.stop, .stop] ++ List.replicate 4 (.call 0) ++ [.stop] ++ List.replicate 2 (.call 2) ++
    [.stop, .drain] ++ List.replicate 3 (.call 1) ++ [.stop, .stop]

theorem stopped_while_overflowing_narrowly :
    let p : Pipeline SteadyCounters := (Pipeline.new 1 2 .default {}).run [.start]
    let s := (new p [0, 1, 0]).run narrowRace
    (p.capture.control.isRunning = true ∧ p.capture.pool.shutdown = false ∧
      s.stop = .returned ∧ ∀ call ∈ s.calls, call.phase.Returned) ∧
      s.calls.map (·.phase.taken.length) = [1, 0, 0] ∧
      s.calls[1]?.map Call.phase = some (.returned (.missed .exhausted)) ∧
      (∀ slot ∈ s.capture.active, slot = none) ∧
      ((s.pipeline.drained ++ s.capture.pool.full).flatMap Buffer.filed).Perm
        (s.calls.flatMap Call.taken) := by
  intro p s
  have hrun : (p.capture.control.isRunning = true ∧ p.capture.pool.shutdown = false ∧
      s.stop = .returned ∧ ∀ call ∈ s.calls, call.phase.Returned) ∧
      s.calls.map (·.phase.taken.length) = [1, 0, 0] ∧
      s.calls[1]?.map Call.phase = some (.returned (.missed .exhausted)) := by
    decide +kernel
  obtain ⟨⟨hrunning, hopen, hstop, hreturned⟩, htaken, hmissed⟩ := hrun
  obtain ⟨-, hslots, hperm, -⟩ := stopped_while_overflowing 1 2 .default ({} : SteadyCounters)
    [.start] [0, 1, 0] narrowRace hrunning hopen hstop hreturned
  have hnone : (p.drained ++ p.capture.pool.full ++ p.capture.activeBuffers).flatMap
      Buffer.filed = [] := rfl
  rw [hnone, List.nil_append] at hperm
  refine ⟨⟨hrunning, hopen, hstop, hreturned⟩, ?_, ?_, ?_, ?_⟩
  · exact htaken
  · exact hmissed
  · exact hslots
  · exact hperm

end Scene

end CounterTrace
