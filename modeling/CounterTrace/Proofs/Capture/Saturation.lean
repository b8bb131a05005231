import CounterTrace.Capture.Simulation
import CounterTrace.Proofs.Capture.Turns

/-!
# Simulations that saturate a pool

As long as a buffer is not completed, each round of a simulation stores a sample.  There is room for
`capacity * bufferCapacity` samples, so all buffers are completed in that many rounds, and in the
next one every core misses a sample.

    c.bufferFor core ≠ none   →   one more sample is stored                      (stored_overflow)
    c.bufferFor core = none   →   nothing is stored and a sample is missed      (overflow_of_none)
    (saturate tick n s).isSaturated   for n ≥ saturationRounds              (isSaturated_saturate)

All samples of a round have the same cycle count, the one of the next round is later by a tick.
What is in the buffers then is in order, unless the clock wraps:

    t.buffer.cyclesOrdered   for all buffers t that are taken at the end  (cyclesOrdered_saturate)
-/

namespace CounterTrace

/-! ## Samples in buffers -/

/-- The samples in some buffers taken together. -/
def samplesIn (bs : List Buffer) : Nat := (bs.flatMap Buffer.samples).length

theorem samplesIn_append (bs bs' : List Buffer) :
    samplesIn (bs ++ bs') = samplesIn bs + samplesIn bs' := by
  rw [samplesIn, List.flatMap_append, List.length_append, samplesIn, samplesIn]

theorem samplesIn_singleton (b : Buffer) : samplesIn [b] = b.samples.length := by
  rw [samplesIn, List.flatMap_singleton]

theorem samplesIn_perm {bs bs' : List Buffer} (h : bs.Perm bs') : samplesIn bs = samplesIn bs' :=
  (h.flatMap_right _).length_eq

theorem samplesIn_le {n : Nat} {bs : List Buffer} (hn : ∀ b ∈ bs, b.samples.length ≤ n) :
    samplesIn bs ≤ bs.length * n := by
  induction bs with
  | nil => exact Nat.zero_le _
  | cons b bs ih =>
    obtain ⟨hb, hbs⟩ := List.forall_mem_cons.1 hn
    have hsplit : samplesIn (b :: bs) = b.samples.length + samplesIn bs := by
      rw [samplesIn, List.flatMap_cons, List.length_append, samplesIn]
    rw [hsplit, List.length_cons, Nat.add_mul]
    have := ih hbs
    omega

/-! ## Captures that run -/

namespace Capture

variable {σ : Type}

/-- The samples in the completed and in the active buffers. -/
def stored (c : Capture σ) : Nat := samplesIn c.pool.full + samplesIn c.activeBuffers

/-- A capture listens, and all its buffers are where they belong. -/
structure Running (capacity cores : Nat) (c : Capture σ) : Prop where
  listens : c.Listens
  balanced : (⟨c, [], []⟩ : Pipeline σ).Balanced capacity
  cores : c.cores = cores

/-- When the buffer for a core is put back into its slot, or another one, or none, the samples that
it held are exchanged for those of the slot. -/
theorem samplesIn_set {c : Capture σ} {core : UInt32} {b : Buffer} {pool : Pool}
    (hb : c.bufferFor core = some (b, pool)) (slot : Option Buffer) :
    samplesIn ((c.active.set core.toNat slot).filterMap id) + b.samples.length =
      samplesIn c.activeBuffers + samplesIn slot.toList := by
  unfold bufferFor at hb
  split at hb
  · cases hb
  · next hslot =>
    obtain ⟨rfl, rfl⟩ := Prod.mk.injEq .. ▸ Option.some.inj hb
    have hperm := samplesIn_perm (filterMap_set_perm hslot slot)
    rwa [samplesIn_append, samplesIn_append, Option.toList_some, samplesIn_singleton] at hperm
  · next hslot =>
    split at hb
    · cases hb
    · obtain ⟨rfl, rfl⟩ := Prod.mk.injEq .. ▸ Option.some.inj hb
      have hperm := samplesIn_perm (filterMap_set_perm hslot slot)
      rw [Option.toList_none, List.append_nil, samplesIn_append] at hperm
      rw [Buffer.samples_reset]
      exact hperm

namespace Running

variable {capacity cores : Nat} {c : Capture σ} (hc : c.Running capacity cores)
include hc

theorem total :
    c.pool.free.length + c.pool.full.length + c.activeBuffers.length = capacity :=
  hc.balanced.total

theorem full_le : c.pool.full.length ≤ capacity := by
  have htotal := hc.total
  omega

/-- When all buffers are completed, there is none for any core. -/
theorem bufferFor_eq_none (hfull : c.pool.full.length = capacity) (core : UInt32) :
    c.bufferFor core = none := by
  have htotal := hc.total
  have hactive : c.activeBuffers = [] := List.length_eq_zero_iff.1 (by omega)
  have hfree : c.pool.free = [] := List.length_eq_zero_iff.1 (by omega)
  unfold bufferFor
  split
  · rfl
  · next b hslot =>
    have hb : b ∈ c.activeBuffers := mem_activeBuffers.2 ⟨_, hslot⟩
    rw [hactive] at hb
    cases hb
  · rw [hfree]

/-- As long as a buffer is not completed, there is a core with a buffer for it. -/
theorem exists_bufferFor (hpos : 0 < cores) (hlt : cores < UInt32.size)
    (hfull : c.pool.full.length < capacity) :
    ∃ i < cores, c.bufferFor (UInt32.ofNat i) ≠ none := by
  have htotal := hc.total
  have hlength : c.active.length = cores := hc.cores
  cases hactive : c.activeBuffers with
  | nil =>
    -- no buffer is active, so the first core takes a free one
    refine ⟨0, hpos, ?_⟩
    have hslot : c.active[(UInt32.ofNat 0).toNat]? = some c.active[0] :=
      List.getElem?_eq_getElem (hlength ▸ hpos)
    cases hfirst : c.active[0] with
    | some b =>
      have hmem : b ∈ c.activeBuffers := mem_activeBuffers.2 ⟨_, hfirst ▸ hslot⟩
      rw [hactive] at hmem
      cases hmem
    | none =>
      rw [hfirst] at hslot
      cases hfree : c.pool.free with
      | nil =>
        rw [hactive, hfree, List.length_nil] at htotal
        omega
      | cons b rest =>
        simp only [bufferFor, hslot, hfree, ne_eq, reduceCtorEq, not_false_eq_true]
  | cons b rest =>
    obtain ⟨i, hi⟩ := mem_activeBuffers.1 (hactive ▸ List.mem_cons_self : b ∈ c.activeBuffers)
    obtain ⟨hcore, -⟩ := List.getElem?_eq_some_iff.1 hi
    refine ⟨i, by omega, ?_⟩
    have htoNat : (UInt32.ofNat i).toNat = i := UInt32.toNat_ofNat_of_lt' (by omega)
    simp only [bufferFor, htoNat, hi, ne_eq, reduceCtorEq, not_false_eq_true]

/-- As long as a buffer is not completed, there is room for a sample. -/
theorem stored_lt (hfull : c.pool.full.length < capacity) :
    c.stored < capacity * bufferCapacity := by
  have htotal := hc.total
  have hcompleted : samplesIn c.pool.full ≤ c.pool.full.length * bufferCapacity :=
    samplesIn_le fun b _ => b.length_samples ▸ b.count_le
  have hactive : samplesIn c.activeBuffers ≤ c.activeBuffers.length * (bufferCapacity - 1) :=
    samplesIn_le fun b hb => by
      obtain ⟨i, hi⟩ := hc.balanced.filling_of_mem hb
      exact Nat.le_sub_one_of_lt hi.room
  simp only [stored, bufferCapacity] at *
  omega

variable [CounterSource σ]

theorem overflow (core : UInt32) : (c.overflow core).2.Running capacity cores := by
  have hbalanced := hc.balanced.overflow core
  have hcores := (Pipeline.after_keeps ⟨c, [], []⟩ (.pipeline (.overflow core))).1
  refine ⟨?_, hbalanced, hcores.trans hc.cores⟩
  have hcases := c.overflow_cases core
  generalize (c.overflow core).1 = outcome at hcases
  generalize (c.overflow core).2 = c' at hcases
  cases hcases with
  | ignored => exact hc.listens
  | missed => exact hc.listens
  | recorded _ hb =>
    obtain ⟨-, -, ⟨free, rfl, -⟩, -⟩ := hc.balanced.bufferFor hb
    exact hc.listens
  | published _ hb =>
    obtain ⟨-, -, ⟨free, rfl, -⟩, -⟩ := hc.balanced.bufferFor hb
    exact hc.listens

omit hc in
theorem record_takes (c : Capture σ) (core : UInt32) (b : Buffer) :
    (c.record core b).1 = .recorded ∨ (c.record core b).1 = .published := by
  simp only [record]
  split
  · exact .inr rfl
  · exact .inl rfl

/-- An overflow for which there is a buffer stores its sample. -/
theorem stored_overflow {core : UInt32} (hb : c.bufferFor core ≠ none) :
    (c.overflow core).2.stored = c.stored + 1 := by
  have htakes : (c.overflow core).1 = .recorded ∨ (c.overflow core).1 = .published := by
    obtain ⟨⟨b, pool⟩, hb⟩ := Option.ne_none_iff_exists'.1 hb
    rw [overflow_of_bufferFor hc.listens hb]
    exact record_takes _ core b
  have hpushed {b : Buffer} (hroom : b.samples.length < bufferCapacity) :
      (b.push (c.sampleFor core)).samples.length = b.samples.length + 1 := by
    rw [Buffer.samples_push (Buffer.isFull_eq_false_iff.2 hroom), List.length_append,
      List.length_singleton]
  have hcases := c.overflow_cases core
  generalize (c.overflow core).1 = outcome at hcases htakes
  generalize (c.overflow core).2 = c' at hcases
  cases hcases with
  | ignored => simp at htakes
  | missed => simp at htakes
  | @recorded b pool _ hb =>
    obtain ⟨-, hroom, ⟨free, rfl, -⟩, -⟩ := hc.balanced.bufferFor hb
    have hset := samplesIn_set hb (some (b.push (c.sampleFor core)))
    rw [Option.toList_some, samplesIn_singleton, hpushed hroom] at hset
    simp only [stored, activeBuffers] at hset ⊢
    omega
  | @published b pool _ hb =>
    obtain ⟨-, hroom, ⟨free, rfl, -⟩, -⟩ := hc.balanced.bufferFor hb
    have hset := samplesIn_set hb none
    have hempty : samplesIn (none : Option Buffer).toList = 0 := rfl
    simp only [stored, activeBuffers, Pool.publish, samplesIn_append, samplesIn_singleton,
      hpushed hroom] at hset ⊢
    omega

/-- An overflow of a core for which there is none is missed. -/
theorem overflow_of_none {core : UInt32} (hcore : core.toNat < cores)
    (hb : c.bufferFor core = none) :
    (c.overflow core).2 = { c with
      control := c.control.recordOverflow.recordMissed
      source := CounterSource.rearm c.source core c.control.activePeriod } := by
  obtain ⟨hrunning, hopen⟩ := hc.listens
  have hrunning' : c.control.recordOverflow.isRunning = true := hrunning
  unfold bufferFor at hb
  split at hb
  · next hslot =>
    have := List.getElem?_eq_none_iff.1 hslot
    have : c.active.length = cores := hc.cores
    omega
  · cases hb
  · next hslot =>
    split at hb
    · next hfree =>
      simp only [Capture.overflow, hrunning', hopen, hslot, Pool.acquire, hfree, miss,
        Bool.not_true, Bool.or_self, Bool.false_eq_true, if_false]
      rfl
    · cases hb

omit hc in
theorem elapse (hc : c.Running capacity cores) (source : σ) :
    ({ c with source := source } : Capture σ).Running capacity cores :=
  ⟨hc.listens, hc.balanced.step (.elapse source), hc.cores⟩

end Running

end Capture

/-! ## Rounds -/

namespace Simulation

open Capture

variable {capacity cores : Nat} {s : Simulation} {l : List Nat}

theorem Running.foldl_overflow (hs : s.capture.Running capacity cores) (l : List Nat) :
    (l.foldl overflow s).capture.Running capacity cores := by
  induction l generalizing s with
  | nil => exact hs
  | cons i l ih => exact ih (hs.overflow _)

theorem capture_overflow_of_none (hs : s.capture.Running capacity cores)
    (hlt : cores ≤ UInt32.size) {i : Nat} (hi : i < cores)
    (hnone : s.capture.bufferFor (UInt32.ofNat i) = none) :
    (s.overflow i).capture = { s.capture with
      control := s.capture.control.recordOverflow.recordMissed
      source := CounterSource.rearm s.capture.source (UInt32.ofNat i)
        s.capture.control.activePeriod } := by
  refine hs.overflow_of_none ?_ hnone
  rwa [UInt32.toNat_ofNat_of_lt' (by omega)]

/-- If there is no buffer for any of the cores, each of them misses a sample. -/
theorem foldl_overflow_of_none (hs : s.capture.Running capacity cores) (hlt : cores ≤ UInt32.size)
    (hl : ∀ i ∈ l, i < cores ∧ s.capture.bufferFor (UInt32.ofNat i) = none) :
    (l.foldl overflow s).capture.pool = s.capture.pool ∧
      (l.foldl overflow s).capture.control.missed =
        s.capture.control.missed + UInt32.ofNat l.length := by
  induction l generalizing s with
  | nil => simp
  | cons i l ih =>
    obtain ⟨⟨hi, hnone⟩, hl⟩ := List.forall_mem_cons.1 hl
    have hmissed := capture_overflow_of_none hs hlt hi hnone
    obtain ⟨hpool, hcount⟩ := ih (s := s.overflow i) (hs.overflow _) fun j hj => by
      rw [hmissed]
      exact hl j hj
    rw [List.foldl_cons, hpool, hcount, hmissed]
    refine ⟨rfl, ?_⟩
    have hone : s.capture.control.recordOverflow.recordMissed.missed =
      s.capture.control.missed + 1 := rfl
    rw [hone, List.length_cons, UInt32.ofNat_add, UInt32.add_assoc]
    exact congrArg _ (UInt32.add_comm ..)

theorem stored_le_overflow (hs : s.capture.Running capacity cores) (hlt : cores ≤ UInt32.size)
    {i : Nat} (hi : i < cores) : s.capture.stored ≤ (s.overflow i).capture.stored := by
  by_cases hnone : s.capture.bufferFor (UInt32.ofNat i) = none
  · exact Nat.le_of_eq (congrArg stored (capture_overflow_of_none hs hlt hi hnone)).symm
  · exact Nat.le_of_lt (hs.stored_overflow hnone ▸ Nat.lt_succ_self _)

theorem stored_le_foldl (hs : s.capture.Running capacity cores) (hlt : cores ≤ UInt32.size)
    (hl : ∀ i ∈ l, i < cores) : s.capture.stored ≤ (l.foldl overflow s).capture.stored := by
  induction l generalizing s with
  | nil => exact Nat.le_refl _
  | cons i l ih =>
    obtain ⟨hi, hl⟩ := List.forall_mem_cons.1 hl
    exact Nat.le_trans (stored_le_overflow hs hlt hi) (ih (hs.overflow _) hl)

/-- If there is a buffer for one of the cores, a sample is stored. -/
theorem stored_lt_foldl (hs : s.capture.Running capacity cores) (hlt : cores ≤ UInt32.size)
    (hl : ∀ i ∈ l, i < cores) (hsome : ∃ i ∈ l, s.capture.bufferFor (UInt32.ofNat i) ≠ none) :
    s.capture.stored < (l.foldl overflow s).capture.stored := by
  induction l generalizing s with
  | nil => simp at hsome
  | cons i l ih =>
    obtain ⟨hi, hl⟩ := List.forall_mem_cons.1 hl
    by_cases hnone : s.capture.bufferFor (UInt32.ofNat i) = none
    · -- nothing changes for the cores that follow, one of which has a buffer
      have hlater : ∃ j ∈ l, (s.overflow i).capture.bufferFor (UInt32.ofNat j) ≠ none := by
        obtain ⟨j, hj, hsome⟩ := hsome
        rw [capture_overflow_of_none hs hlt hi hnone]
        rcases List.mem_cons.1 hj with rfl | hj
        · exact absurd hnone hsome
        · exact ⟨j, hj, hsome⟩
      exact Nat.lt_of_le_of_lt (stored_le_overflow hs hlt hi) (ih (hs.overflow _) hl hlater)
    · have hstored : (s.overflow i).capture.stored = s.capture.stored + 1 :=
        hs.stored_overflow hnone
      have hrest : (s.overflow i).capture.stored ≤ (l.foldl overflow (s.overflow i)).capture.stored :=
        stored_le_foldl (hs.overflow _) hlt hl
      rw [List.foldl_cons]
      omega

theorem Running.round (hs : s.capture.Running capacity cores) (tick : UInt64) :
    (s.round tick).capture.Running capacity cores :=
  (Running.foldl_overflow hs _).elapse _

/-- As long as a buffer is not completed, a round stores a sample. -/
theorem stored_lt_round (hs : s.capture.Running capacity cores) (hpos : 0 < cores)
    (hlt : cores < UInt32.size) (hfull : s.capture.pool.full.length < capacity) (tick : UInt64) :
    s.capture.stored < (s.round tick).capture.stored := by
  obtain ⟨i, hi, hsome⟩ := hs.exists_bufferFor hpos hlt hfull
  refine stored_lt_foldl hs (Nat.le_of_lt hlt) (fun j hj => ?_) ⟨i, ?_, hsome⟩
  · rw [hs.cores] at hj
    exact List.mem_range.1 hj
  · rw [hs.cores]
    exact List.mem_range.2 hi

/-- When all buffers are completed, a round adds none and every core misses a sample. -/
theorem round_of_full (hs : s.capture.Running capacity cores) (hlt : cores < UInt32.size)
    (hfull : s.capture.pool.full.length = capacity) (tick : UInt64) :
    (s.round tick).capture.pool = s.capture.pool ∧
      (s.round tick).capture.control.missed =
        s.capture.control.missed + UInt32.ofNat cores := by
  obtain ⟨hpool, hmissed⟩ := foldl_overflow_of_none (l := List.range s.capture.cores) hs
    (Nat.le_of_lt hlt) fun i hi =>
      ⟨hs.cores ▸ List.mem_range.1 hi, hs.bufferFor_eq_none hfull _⟩
  rw [List.length_range, hs.cores] at hmissed
  exact ⟨hpool, hs.cores ▸ hmissed⟩

/-! ## Saturation -/

theorem isSaturated_iff (hs : s.capture.Running capacity cores) :
    s.isSaturated = true ↔
      s.capture.pool.full.length = capacity ∧ s.capture.control.missed ≠ 0 := by
  have hcapacity : s.capture.pool.capacity = capacity := hs.balanced.capacity
  simp [isSaturated, hcapacity]

/-- One round for each sample that there is room for, and one more, are enough. -/
theorem isSaturated_of_rounds (hs : s.capture.Running capacity cores) (hpos : 0 < cores)
    (hlt : cores < UInt32.size) (tick : UInt64) {n : Nat}
    (hfull : s.capture.pool.full.length = capacity → s.capture.control.missed = 0 → 0 < n)
    (hroom : s.capture.pool.full.length < capacity →
      capacity * bufferCapacity < n + s.capture.stored) :
    (saturate tick n s).isSaturated = true := by
  induction n generalizing s with
  | zero =>
    have hle := hs.full_le
    have hall : s.capture.pool.full.length = capacity := by
      by_contra hne
      have := hroom (by omega)
      have := hs.stored_lt (by omega)
      omega
    exact (isSaturated_iff hs).2 ⟨hall, fun hmissed => absurd (hfull hall hmissed) (by decide)⟩
  | succ n ih =>
    by_cases hdone : s.isSaturated = true
    · simp only [saturate, hdone, if_true]
    simp only [saturate, hdone]
    by_cases hall : s.capture.pool.full.length = capacity
    · -- every core misses a sample in this round
      obtain ⟨hpool, hmissed⟩ := round_of_full hs hlt hall tick
      have hzero : s.capture.control.missed = 0 := by
        by_contra hmissed
        exact hdone ((isSaturated_iff hs).2 ⟨hall, hmissed⟩)
      refine ih (Running.round hs tick) (fun _ hnone => ?_) fun hless => ?_
      · rw [hmissed, hzero, UInt32.zero_add] at hnone
        have htoNat : (UInt32.ofNat cores).toNat = cores := UInt32.toNat_ofNat_of_lt' hlt
        rw [hnone] at htoNat
        exact absurd htoNat (Nat.ne_of_lt hpos)
      · rw [hpool] at hless
        omega
    · have hless : s.capture.pool.full.length < capacity := by
        have := hs.full_le
        omega
      have hstored := stored_lt_round hs hpos hlt hless tick
      have hroom := hroom hless
      have hbefore := hs.stored_lt hless
      exact ih (Running.round hs tick) (fun _ _ => by omega) fun _ => by omega

theorem running_start (capacity cores : Nat) (control : Control) (source : TaskCounters) :
    (start (.new (.new capacity) control source cores)).capture.Running capacity cores := by
  have hbalanced : (Pipeline.new capacity cores control source).Balanced capacity := .new ..
  refine ⟨⟨rfl, rfl⟩, hbalanced.start, ?_⟩
  simp [start, Capture.start, discardActive, Capture.new, Capture.cores]

/-- **A simulation saturates its pool.**  On any number of cores but none, and however the clock
goes, all buffers are completed and a sample is missed after `saturationRounds` rounds. -/
theorem isSaturated_saturate (capacity : Nat) {cores : Nat} (hpos : 0 < cores)
    (hlt : cores < UInt32.size) (control : Control) (source : TaskCounters) (tick : UInt64)
    {n : Nat} (hn : saturationRounds (.new capacity) ≤ n) :
    (saturate tick n (start (.new (.new capacity) control source cores))).isSaturated = true := by
  have hrunning := running_start capacity cores control source
  refine isSaturated_of_rounds hrunning hpos hlt tick (fun _ _ => ?_) fun _ => ?_
  · simp only [saturationRounds] at hn
    omega
  · simp only [saturationRounds, Pool.new] at hn
    omega

end Simulation

/-! ## The order of cycle counts -/

theorem all_zip_tail_iff {l : List Sample} :
    (l.zip l.tail).all (fun (s, t) => s.cycles ≤ t.cycles) = true ↔
      l.Pairwise fun s t => s.cycles ≤ t.cycles := by
  induction l with
  | nil => simp
  | cons s l ih =>
    cases l with
    | nil => simp
    | cons t l =>
      have hcons : ((s :: t :: l).zip (s :: t :: l).tail).all (fun (s, t) => s.cycles ≤ t.cycles) =
          (decide (s.cycles ≤ t.cycles) &&
            ((t :: l).zip (t :: l).tail).all fun (s, t) => s.cycles ≤ t.cycles) := rfl
      rw [hcons, Bool.and_eq_true, decide_eq_true_eq, ih, List.pairwise_cons (l := t :: l)]
      refine and_congr_left fun hsorted => ⟨fun hfirst x hx => ?_, fun hall => ?_⟩
      · rcases List.mem_cons.1 hx with rfl | hx
        · exact hfirst
        · exact UInt64.le_trans hfirst ((List.pairwise_cons.1 hsorted).1 x hx)
      · exact hall t List.mem_cons_self

theorem Buffer.cyclesOrdered_iff (b : Buffer) :
    b.cyclesOrdered = true ↔ b.samples.Pairwise fun s t => s.cycles ≤ t.cycles :=
  all_zip_tail_iff

/-- The cycle counts in a buffer do not decrease, and none of them is past a limit. -/
def Buffer.RisesTo (b : Buffer) (limit : UInt64) : Prop :=
  (b.samples.Pairwise fun s t => s.cycles ≤ t.cycles) ∧ ∀ s ∈ b.samples, s.cycles ≤ limit

theorem Buffer.RisesTo.push {b : Buffer} {s : Sample} (hb : b.RisesTo s.cycles)
    (hroom : b.samples.length < bufferCapacity) : (b.push s).RisesTo s.cycles := by
  obtain ⟨hsorted, hlimit⟩ := hb
  rw [RisesTo, samples_push (isFull_eq_false_iff.2 hroom)]
  refine ⟨List.pairwise_append.2 ⟨hsorted, List.pairwise_singleton .., fun t ht u hu => ?_⟩,
    List.forall_mem_append.2 ⟨hlimit, List.forall_mem_singleton.2 (UInt64.le_refl _)⟩⟩
  rw [List.mem_singleton.1 hu]
  exact hlimit t ht

namespace Capture

/-- The cycle count of the next sample. -/
def nextCycles (c : Capture TaskCounters) : UInt64 :=
  c.source.now + c.control.activePeriod.toUInt64

/-- In every buffer the cycle counts do not decrease, and the next one is not smaller. -/
def InOrder (c : Capture TaskCounters) : Prop :=
  ∀ b ∈ c.pool.full ++ c.activeBuffers, b.RisesTo c.nextCycles

variable {c : Capture TaskCounters}

theorem cycles_sampleFor (core : UInt32) : (c.sampleFor core).cycles = c.nextCycles := by
  rw [sampleFor, cycles_snapshot, cyclesRead, TaskCounters.readCounters_snd]
  rfl

theorem now_sourceAfter (core : UInt32) : (c.sourceAfter core).now = c.source.now := by
  simp only [sourceAfter, (snapshot_tasks ..).2, CounterSource.rearm, CounterSource.currentPid]
  split <;> rfl

/-- An overflow takes no time and does not change the period. -/
theorem clock_overflow (c : Capture TaskCounters) (core : UInt32) :
    (c.overflow core).2.source.now = c.source.now ∧
      (c.overflow core).2.control.activePeriod = c.control.activePeriod := by
  have hcases := c.overflow_cases core
  generalize (c.overflow core).1 = outcome at hcases
  generalize (c.overflow core).2 = c' at hcases
  cases hcases with
  | ignored => exact ⟨rfl, rfl⟩
  | missed => exact ⟨rfl, rfl⟩
  | recorded => exact ⟨now_sourceAfter core, rfl⟩
  | published => exact ⟨now_sourceAfter core, rfl⟩

theorem InOrder.bufferFor (hc : c.InOrder) {core : UInt32} {b : Buffer} {pool : Pool}
    (hb : c.bufferFor core = some (b, pool)) : b.RisesTo c.nextCycles := by
  rcases mem_or_eq_nil_of_bufferFor hb with hactive | hempty
  · exact hc b (List.mem_append_right _ hactive)
  · rw [Buffer.RisesTo, hempty]
    exact ⟨.nil, nofun⟩

theorem InOrder.overflow (hc : c.InOrder) {capacity cores : Nat}
    (hrunning : c.Running capacity cores) (core : UInt32) : (c.overflow core).2.InOrder := by
  have hpushed {b : Buffer} {pool : Pool} (hb : c.bufferFor core = some (b, pool)) :
      (b.push (c.sampleFor core)).RisesTo c.nextCycles := by
    have hrises := hc.bufferFor hb
    rw [← cycles_sampleFor core] at hrises ⊢
    exact hrises.push (hrunning.balanced.bufferFor hb).2.1
  obtain ⟨hnow, hperiod⟩ := c.clock_overflow core
  have hcases := c.overflow_cases core
  rw [InOrder, nextCycles, hnow, hperiod]
  generalize (c.overflow core).1 = outcome at hcases
  generalize (c.overflow core).2 = c' at hcases
  intro b' hb'
  cases hcases with
  | ignored => exact hc b' hb'
  | missed => exact hc b' hb'
  | recorded _ hb =>
    obtain ⟨-, -, ⟨free, rfl, -⟩, -⟩ := hrunning.balanced.bufferFor hb
    rcases List.mem_append.1 hb' with hb' | hb'
    · exact hc b' (List.mem_append_left _ hb')
    · rcases mem_filterMap_set hb' with heq | hb'
      · exact Option.some.inj heq ▸ hpushed hb
      · exact hc b' (List.mem_append_right _ hb')
  | published _ hb =>
    obtain ⟨-, -, ⟨free, rfl, -⟩, -⟩ := hrunning.balanced.bufferFor hb
    rcases List.mem_append.1 hb' with hb' | hb'
    · rcases List.mem_append.1 hb' with hb' | hb'
      · exact hc b' (List.mem_append_left _ hb')
      · exact List.mem_singleton.1 hb' ▸ hpushed hb
    · rcases mem_filterMap_set hb' with heq | hb'
      · cases heq
      · exact hc b' (List.mem_append_right _ hb')

end Capture

namespace Simulation

open Capture

variable {capacity cores : Nat} {s : Simulation}

theorem clock_foldl_overflow (l : List Nat) (s : Simulation) :
    (l.foldl overflow s).capture.source.now = s.capture.source.now ∧
      (l.foldl overflow s).capture.control.activePeriod = s.capture.control.activePeriod := by
  induction l generalizing s with
  | nil => exact ⟨rfl, rfl⟩
  | cons i l ih =>
    obtain ⟨hnow, hperiod⟩ := ih (s.overflow i)
    obtain ⟨hnow', hperiod'⟩ := s.capture.clock_overflow (UInt32.ofNat i)
    exact ⟨hnow.trans hnow', hperiod.trans hperiod'⟩

theorem inOrder_foldl_overflow (hs : s.capture.Running capacity cores)
    (horder : s.capture.InOrder) (l : List Nat) : (l.foldl overflow s).capture.InOrder := by
  induction l generalizing s with
  | nil => exact horder
  | cons i l ih => exact ih (hs.overflow _) (horder.overflow hs _)

/-- Time passes in a round and the period stays. -/
theorem clock_round (s : Simulation) (tick : UInt64) :
    (s.round tick).capture.source.now = s.capture.source.now + tick ∧
      (s.round tick).capture.control.activePeriod = s.capture.control.activePeriod := by
  obtain ⟨hnow, hperiod⟩ := clock_foldl_overflow (List.range s.capture.cores) s
  exact ⟨congrArg (· + tick) hnow, hperiod⟩

/-- A round keeps the order if the clock does not wrap in it. -/
theorem inOrder_round (hs : s.capture.Running capacity cores) (horder : s.capture.InOrder)
    {tick : UInt64}
    (hclock : s.capture.source.now.toNat + s.capture.control.activePeriod.toNat + tick.toNat <
      UInt64.size) : (s.round tick).capture.InOrder := by
  obtain ⟨hnow, hperiod⟩ := clock_round s tick
  have hbefore := inOrder_foldl_overflow hs horder (List.range s.capture.cores)
  obtain ⟨hnow', hperiod'⟩ := clock_foldl_overflow (List.range s.capture.cores) s
  have hlater : s.capture.nextCycles ≤ (s.round tick).capture.nextCycles := by
    rw [nextCycles, nextCycles, hnow, hperiod, UInt64.le_iff_toNat_le]
    simp only [UInt64.toNat_add, UInt32.toNat_toUInt64, UInt64.size] at hclock ⊢
    omega
  intro b hb
  obtain ⟨hsorted, hlimit⟩ := hbefore b hb
  refine ⟨hsorted, fun x hx => UInt64.le_trans (hlimit x hx) ?_⟩
  rw [nextCycles, hnow', hperiod']
  exact hlater

theorem inOrder_saturate (hs : s.capture.Running capacity cores) (horder : s.capture.InOrder)
    {tick : UInt64} {n : Nat}
    (hclock : s.capture.source.now.toNat + s.capture.control.activePeriod.toNat +
      n * tick.toNat < UInt64.size) : (saturate tick n s).capture.InOrder := by
  induction n generalizing s with
  | zero => exact horder
  | succ n ih =>
    rw [Nat.add_mul, Nat.one_mul] at hclock
    simp only [saturate]
    split
    · exact horder
    · obtain ⟨hnow, hperiod⟩ := clock_round s tick
      refine ih (Running.round hs tick) (inOrder_round hs horder (by omega)) ?_
      rw [hnow, hperiod, UInt64.toNat_add]
      omega

theorem Running.saturate (hs : s.capture.Running capacity cores) (tick : UInt64) (n : Nat) :
    (saturate tick n s).capture.Running capacity cores := by
  induction n generalizing s with
  | zero => exact hs
  | succ n ih =>
    simp only [Simulation.saturate]
    split
    · exact hs
    · exact ih (Running.round hs tick)

theorem inOrder_start (capacity cores : Nat) (control : Control) (source : TaskCounters) :
    (start (.new (.new capacity) control source cores)).capture.InOrder := by
  have hfull : (start (.new (.new capacity) control source cores)).capture.pool.full = [] :=
    congrArg Pool.full (pool_discardActive _)
  have hactive : (start (.new (.new capacity) control source cores)).capture.activeBuffers = [] :=
    activeBuffers_discardActive _
  intro b hb
  rw [hfull, hactive] at hb
  cases hb

theorem now_start (c : Capture TaskCounters) : (start c).capture.source.now = c.source.now :=
  @Pipeline.source_after _ _ (fun t : TaskCounters => t.now = c.source.now) ⟨c, [], []⟩
    (fun _ _ _ h => h) rfl (.pipeline .start) nofun nofun

/-- **Cycle counts go up.**  As long as the clock does not wrap, no cycle count in a buffer is
smaller than one before it. -/
theorem cyclesOrdered_saturate (capacity cores : Nat) (control : Control) (source : TaskCounters)
    {tick : UInt64} {n : Nat}
    (hclock : source.now.toNat + control.begin.activePeriod.toNat + n * tick.toNat < UInt64.size) :
    ∀ t ∈ (saturate tick n (start (.new (.new capacity) control source cores))).stop.takeAll.1,
      t.buffer.cyclesOrdered = true := by
  have hrunning := running_start capacity cores control source
  have hordered :
      (saturate tick n (start (.new (.new capacity) control source cores))).capture.InOrder := by
    refine inOrder_saturate hrunning (inOrder_start capacity cores control source) ?_
    rw [now_start]
    exact hclock
  have hsaturated := Running.saturate hrunning tick n
  generalize saturate tick n (start (.new (.new capacity) control source cores)) = s at *
  have hfull : s.stop.capture.pool.full = s.capture.pool.full ++ s.capture.activeBuffers :=
    congrArg Pool.full (pool_flush_eq hsaturated.balanced.activeBuffers_isEmpty)
  intro t ht
  obtain ⟨b, hb, rfl⟩ := List.mem_map.1 ht
  exact b.cyclesOrdered_iff.2 (hordered b (hfull ▸ hb)).1

end Simulation

end CounterTrace
