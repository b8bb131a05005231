import CounterTrace.Proofs.Capture.Pipeline

/-!
# Conservation of buffers

Every buffer of a pool is in one of four places: it is free, completed, active on a core, or on loan
to the consumer.  Whatever happens, none is lost and none is in two places, and each is what its
place asks for: free ones are empty, completed ones are not, and an active one is of its core and
has both a sample and room for a further one.

    p.Balanced capacity                     the buffers of `p` are where they belong
    p.Balanced capacity → (p.step e).Balanced capacity                         (Balanced.step)
    every run of every pipeline is balanced, with what follows from it         (run_conserves)
-/

namespace CounterTrace

namespace Buffer

theorem isFull_eq_false_iff {b : Buffer} :
    b.isFull = false ↔ b.samples.length < bufferCapacity := by
  rw [length_samples, isFull, decide_eq_false_iff_not, Nat.not_le]

theorem isEmpty_eq_false_iff {b : Buffer} : b.isEmpty = false ↔ b.samples ≠ [] := by
  rw [isEmpty, beq_eq_false_iff_ne, ← length_samples, ne_eq, List.length_eq_zero_iff]

/-- A buffer is in use on the core with number `i`: it holds a sample and has room for another. -/
structure Filling (i : Nat) (b : Buffer) : Prop where
  core : b.core.toNat = i
  ne_nil : b.samples ≠ []
  room : b.samples.length < bufferCapacity

end Buffer

/-- The buffers of a pipeline are all there, and are where they belong. -/
structure Pipeline.Balanced {σ : Type} (n : Nat) (p : Pipeline σ) : Prop where
  capacity : p.capture.pool.capacity = n
  total : p.capture.pool.free.length + p.capture.pool.full.length +
    p.capture.activeBuffers.length + p.held.length = n
  free : ∀ b ∈ p.capture.pool.free, b.samples = []
  full : ∀ b ∈ p.capture.pool.full, b.samples ≠ []
  active : ∀ (i : Nat) (b : Buffer), p.capture.active[i]? = some (some b) → b.Filling i

namespace Pipeline.Balanced

variable {σ : Type} {capacity : Nat} {p : Pipeline σ}

theorem new (capacity cores : Nat) (control : Control) (source : σ) :
    (Pipeline.new capacity cores control source).Balanced capacity where
  capacity := rfl
  total := by simp [Pipeline.new, Capture.new, Pool.new, Capture.activeBuffers]
  free b hb := by
    rw [List.eq_of_mem_replicate hb]
    rfl
  full b hb := by cases hb
  active i b h := by simp [Pipeline.new, Capture.new, List.getElem?_replicate] at h

section
variable (hp : p.Balanced capacity)
include hp

theorem filling_of_mem {b : Buffer} (hb : b ∈ p.capture.activeBuffers) : ∃ i, b.Filling i := by
  obtain ⟨i, hi⟩ := Capture.mem_activeBuffers.1 hb
  exact ⟨i, hp.active i b hi⟩

theorem activeBuffers_isEmpty : ∀ b ∈ p.capture.activeBuffers, b.isEmpty = false := by
  intro b hb
  obtain ⟨i, hi⟩ := hp.filling_of_mem hb
  exact Buffer.isEmpty_eq_false_iff.2 hi.ne_nil

/-! ## What an overflow finds -/

/-- The buffer for the next sample is of the core and has room.  It is missing either from the slot
of the core or from the free buffers. -/
theorem bufferFor {core : UInt32} {b : Buffer} {pool : Pool}
    (hb : p.capture.bufferFor core = some (b, pool)) :
    b.core = core ∧ b.samples.length < bufferCapacity ∧
      (∃ free, pool = { p.capture.pool with free := free } ∧ free ⊆ p.capture.pool.free) ∧
      ∀ slot : Option Buffer,
        pool.free.length + ((p.capture.active.set core.toNat slot).filterMap id).length + 1 =
          p.capture.pool.free.length + p.capture.activeBuffers.length + slot.toList.length := by
  unfold Capture.bufferFor at hb
  split at hb
  · cases hb
  · next hslot =>
    obtain ⟨rfl, rfl⟩ := Prod.mk.injEq .. ▸ Option.some.inj hb
    have hfilling := hp.active _ _ hslot
    refine ⟨UInt32.toNat_inj.1 hfilling.core, hfilling.room, ⟨_, rfl, List.Subset.refl _⟩, ?_⟩
    intro slot
    have := (filterMap_set_perm hslot slot).length_eq
    simp only [List.length_append, Option.toList_some, List.length_singleton] at this
    simp only [Capture.activeBuffers]
    omega
  · next hslot =>
    split at hb
    · cases hb
    · next b rest hfree =>
      obtain ⟨rfl, rfl⟩ := Prod.mk.injEq .. ▸ Option.some.inj hb
      refine ⟨rfl, by simp [bufferCapacity], ⟨rest, rfl, ?_⟩, ?_⟩
      · rw [hfree]
        exact List.subset_cons_self ..
      · intro slot
        have := (filterMap_set_perm hslot slot).length_eq
        simp only [List.length_append, Option.toList_none, List.length_nil] at this
        simp only [Capture.activeBuffers, hfree, List.length_cons]
        omega

/-- Putting a buffer into the slot of its core, or emptying the slot, leaves all slots in order. -/
theorem active_set {i : Nat} {slot : Option Buffer} (hslot : ∀ b ∈ slot, b.Filling i) :
    ∀ (j : Nat) (b : Buffer), (p.capture.active.set i slot)[j]? = some (some b) → b.Filling j := by
  intro j b hj
  rcases getElem?_set_cases hj with ⟨rfl, hb⟩ | ⟨-, hj⟩
  · exact hslot b hb.symm
  · exact hp.active j b hj

variable [CounterSource σ]

/-- An overflow that takes its sample finds a buffer with room and puts the sample last. -/
theorem overflow_takes {core : UInt32}
    (h : (p.capture.overflow core).1 = .recorded ∨ (p.capture.overflow core).1 = .published) :
    ∃ b pool, p.capture.bufferFor core = some (b, pool) ∧ b.isFull = false ∧
      p.capture.overflow core =
        { p.capture with
          control := p.capture.control.recordOverflow, pool := pool }.record core b ∧
      (b.push (p.capture.sampleFor core)).samples = b.samples ++ [p.capture.sampleFor core] := by
  obtain ⟨hlistens, b, pool, hb⟩ := p.capture.of_overflow_takes h
  have hroom := Buffer.isFull_eq_false_iff.2 (hp.bufferFor hb).2.1
  exact ⟨b, pool, hb, hroom, Capture.overflow_of_bufferFor hlistens hb, Buffer.samples_push hroom _⟩

theorem overflow (core : UInt32) : (p.step (.overflow core)).Balanced capacity := by
  have hcases := p.capture.overflow_cases core
  simp only [Pipeline.step]
  generalize (p.capture.overflow core).1 = outcome at hcases
  generalize (p.capture.overflow core).2 = c' at hcases
  cases hcases with
  | ignored => exact ⟨hp.capacity, hp.total, hp.free, hp.full, hp.active⟩
  | missed => exact ⟨hp.capacity, hp.total, hp.free, hp.full, hp.active⟩
  | @recorded b pool _ hb hroom =>
    obtain ⟨hcore, hlt, ⟨free, rfl, hsubset⟩, hcount⟩ := hp.bufferFor hb
    have hsamples := Buffer.samples_push (Buffer.isFull_eq_false_iff.2 hlt)
      (p.capture.sampleFor core)
    refine ⟨hp.capacity, ?_, fun b' hb' => hp.free b' (hsubset hb'), hp.full, ?_⟩
    · have := hcount (some (b.push (p.capture.sampleFor core)))
      have := hp.total
      simp only [Option.toList_some, List.length_singleton] at *
      simp only [Capture.activeBuffers] at *
      omega
    · refine hp.active_set ?_
      rintro _ ⟨⟩
      exact ⟨by rw [Buffer.core_push, hcore], by simp [hsamples],
        Buffer.isFull_eq_false_iff.1 hroom⟩
  | @published b pool _ hb hfull =>
    obtain ⟨hcore, hlt, ⟨free, rfl, hsubset⟩, hcount⟩ := hp.bufferFor hb
    have hsamples := Buffer.samples_push (Buffer.isFull_eq_false_iff.2 hlt)
      (p.capture.sampleFor core)
    refine ⟨hp.capacity, ?_, fun b' hb' => hp.free b' (hsubset hb'), ?_, ?_⟩
    · have := hcount none
      have := hp.total
      simp only [Option.toList_none, List.length_nil] at *
      simp only [Capture.activeBuffers, Pool.publish, List.length_append,
        List.length_singleton] at *
      omega
    · intro b' hb'
      rcases List.mem_append.1 hb' with hb' | hb'
      · exact hp.full b' hb'
      · rw [List.mem_singleton.1 hb', hsamples]
        simp
    · exact hp.active_set fun b hb => absurd hb (Option.not_mem_none b)

omit [CounterSource σ] in
theorem discardActive :
    ({ p with capture := p.capture.discardActive } : Pipeline σ).Balanced capacity where
  capacity := by rw [Capture.pool_discardActive]; exact hp.capacity
  total := by
    have := hp.total
    simp only [Capture.pool_discardActive, List.length_append, List.length_map,
      Capture.activeBuffers_discardActive, List.length_nil]
    omega
  free b hb := by
    rw [Capture.pool_discardActive] at hb
    rcases List.mem_append.1 hb with hb | hb
    · exact hp.free b hb
    · obtain ⟨b', -, rfl⟩ := List.mem_map.1 hb
      exact b'.samples_reset 0
  full b hb := by
    rw [Capture.pool_discardActive] at hb
    exact hp.full b hb
  active i b h := by
    simp only [Capture.discardActive, List.getElem?_map, Option.map_eq_some_iff, reduceCtorEq,
      and_false, exists_const] at h

omit [CounterSource σ] in
theorem flush : ({ p with capture := p.capture.flush.2 } : Pipeline σ).Balanced capacity where
  capacity := by rw [Capture.pool_flush_eq hp.activeBuffers_isEmpty]; exact hp.capacity
  total := by
    have := hp.total
    simp only [Capture.pool_flush_eq hp.activeBuffers_isEmpty, List.length_append,
      Capture.activeBuffers_flush, List.length_nil]
    omega
  free b hb := by
    rw [Capture.pool_flush_eq hp.activeBuffers_isEmpty] at hb
    exact hp.free b hb
  full b hb := by
    rw [Capture.pool_flush_eq hp.activeBuffers_isEmpty] at hb
    rcases List.mem_append.1 hb with hb | hb
    · exact hp.full b hb
    · obtain ⟨i, hi⟩ := hp.filling_of_mem hb
      exact hi.ne_nil
  active i b h := by
    simp only [Capture.flush, List.getElem?_map, Option.map_eq_some_iff, reduceCtorEq, and_false,
      exists_const] at h

theorem start : (p.step .start).Balanced capacity :=
  have h := hp.discardActive
  ⟨h.capacity, h.total, h.free, h.full, h.active⟩

theorem stop : (p.step .stop).Balanced capacity :=
  have h := hp.flush
  ⟨h.capacity, h.total, h.free, h.full, h.active⟩

omit [CounterSource σ] in
theorem drain : p.drain.Balanced capacity := by
  unfold Pipeline.drain Pool.tryDrain
  have htotal := hp.total
  cases hfull : p.capture.pool.full with
  | nil => exact hp
  | cons b rest =>
    rw [hfull, List.length_cons] at htotal
    refine ⟨hp.capacity, ?_, hp.free, fun b' hb' => ?_, hp.active⟩
    · simp only [Capture.activeBuffers, List.length_append, List.length_singleton] at *
      omega
    · exact hp.full b' (hfull ▸ List.mem_cons_of_mem _ hb')

omit [CounterSource σ] in
theorem release (i : Nat) : (p.release i).Balanced capacity := by
  unfold Pipeline.release
  have htotal := hp.total
  cases hheld : p.held[i]? with
  | none => exact hp
  | some b =>
    obtain ⟨hi, -⟩ := List.getElem?_eq_some_iff.1 hheld
    refine ⟨hp.capacity, ?_, fun b' hb' => ?_, hp.full, hp.active⟩
    · simp only [Pool.release, Capture.activeBuffers, List.length_append, List.length_singleton,
        List.length_eraseIdx_of_lt hi] at *
      omega
    · rcases List.mem_append.1 hb' with hb' | hb'
      · exact hp.free b' hb'
      · rw [List.mem_singleton.1 hb']
        exact b.samples_reset 0

/-- Every event leaves every buffer where it belongs. -/
theorem step (e : PipelineEvent σ) : (p.step e).Balanced capacity := by
  cases e with
  | overflow core => exact hp.overflow core
  | start => exact hp.start
  | stop => exact hp.stop
  | flush => exact hp.flush
  | apply knob raw =>
    simp only [Pipeline.step]
    rcases p.capture.apply_cases knob raw with ⟨-, h⟩ | ⟨-, h⟩ | ⟨-, -, control, h, -⟩
    · rw [h]
      exact hp.start
    · rw [h]
      exact hp.stop
    · rw [h]
      exact ⟨hp.capacity, hp.total, hp.free, hp.full, hp.active⟩
  | drain => exact hp.drain
  | release i => exact hp.release i
  | close => exact ⟨hp.capacity, hp.total, hp.free, hp.full, hp.active⟩
  | reopen => exact ⟨hp.capacity, hp.total, hp.free, hp.full, hp.active⟩
  | elapse source => exact ⟨hp.capacity, hp.total, hp.free, hp.full, hp.active⟩

theorem run (events : List (PipelineEvent σ)) : (p.run events).Balanced capacity := by
  induction events generalizing p with
  | nil => exact hp
  | cons e events ih => exact ih (hp.step e)

end

end Pipeline.Balanced

namespace Pipeline

variable {σ : Type} [CounterSource σ]

/-- **Buffers are conserved.**  After any run of any pipeline every buffer is free, completed,
active or on loan, so the pool counts as in use exactly what is active or on loan.  Every buffer is
what its place asks for.  Hence a flush finds no empty buffer, an overflow never puts its sample
into a full one, and a sample is missed only if no buffer is left and none is active on its core. -/
theorem run_conserves (capacity cores : Nat) (control : Control) (source : σ)
    (events : List (PipelineEvent σ)) :
    let p := (new capacity cores control source).run events
    let c := p.capture
    c.pool.free.length + c.pool.full.length + c.activeBuffers.length + p.held.length = capacity ∧
      c.pool.occupancy.capacity = capacity ∧
      c.pool.occupancy.free + c.pool.occupancy.full ≤ c.pool.occupancy.capacity ∧
      c.pool.occupancy.inUse = c.activeBuffers.length + p.held.length ∧
      (∀ b ∈ c.pool.free, b.samples = []) ∧
      (∀ b ∈ c.pool.full, b.samples ≠ []) ∧
      (∀ (i : Nat) (b : Buffer), c.active[i]? = some (some b) →
        b.core.toNat = i ∧ 1 ≤ b.samples.length ∧ b.samples.length ≤ 101) ∧
      c.flush.1 = c.activeBuffers.length ∧
      c.flush.2.pool = c.activeBuffers.foldl Pool.publish c.pool ∧
      ∀ core,
        ((c.overflow core).1 = .recorded ∨ (c.overflow core).1 = .published →
          ∃ b pool, c.bufferFor core = some (b, pool) ∧ b.isFull = false ∧
            c.overflow core =
              { c with control := c.control.recordOverflow, pool := pool }.record core b ∧
            (b.push (c.sampleFor core)).samples = b.samples ++ [c.sampleFor core]) ∧
        ((c.overflow core).1 = .missed →
          c.active[core.toNat]? = some none ∧ c.pool.free = [] ∧ c.pool.shutdown = false ∧
            c.pool.full.length + c.activeBuffers.length + p.held.length = capacity) := by
  intro p c
  have hp : p.Balanced capacity := (Balanced.new capacity cores control source).run events
  have htotal : c.pool.free.length + c.pool.full.length + c.activeBuffers.length + p.held.length =
    capacity := hp.total
  have hcapacity : c.pool.capacity = capacity := hp.capacity
  refine ⟨htotal, hcapacity, ?_, ?_, hp.free, hp.full, ?_, ?_, ?_, fun core => ⟨?_, ?_⟩⟩
  · simp only [Pool.occupancy]
    omega
  · simp only [Pool.occupancy, Occupancy.inUse]
    omega
  · intro i b hb
    have hfilling := hp.active i b hb
    have hne := List.length_pos_iff.2 hfilling.ne_nil
    have hroom := hfilling.room
    rw [bufferCapacity] at hroom
    exact ⟨hfilling.core, by omega, by omega⟩
  · refine List.countP_eq_length.2 fun b hb => ?_
    rw [hp.activeBuffers_isEmpty b hb]
    rfl
  · exact Capture.pool_flush hp.activeBuffers_isEmpty
  · exact hp.overflow_takes
  · intro hmissed
    obtain ⟨hslot, hfree, hopen⟩ := p.capture.of_overflow_missed hmissed
    refine ⟨hslot, hfree, hopen, ?_⟩
    rw [hfree, List.length_nil] at htotal
    omega

end Pipeline

end CounterTrace
