import CounterTrace.Identity.ProcessTable
import CounterTrace.Proofs.Identity.Resolving
import CounterTrace.Proofs.Packet.Batches
import Mathlib.Data.List.SplitBy

/-!
# Batches as runs

The packets of a batch are the maximal runs of samples of one process.  While a packet is pending
its process is known to the cache and is not looked at again, so every sample that joins the packet
has the mode that the header names; and a buffer holds fewer samples than a packet has room for.
What is left of the rule for new packets is a change of the process.

    InSequence core number missed n ps       `ps` are packets of a batch, from its sample `n` on
    b.Tracks core number missed cache n      `b` works on a packet that begins with sample `n`
    Packed core number missed n ss b cache   what comes of adding `ss` to `b`            (packed)
    (b.encodeBuffer buffer cache missed).1  the maximal runs of `buffer`     (encodeBuffer_runs)
-/

namespace CounterTrace

/-- The samples of a packet, each with the mode that the header names. -/
def Packet.flagged (p : Packet) : List (Sample × Bool) := p.samples.map (·, p.header.kernel)

/-- A packet bears the stamps of its batch, with `n` samples of the batch before it. -/
structure Packet.Stamped (core number missed : UInt32) (n : Nat) (p : Packet) : Prop where
  fits : p.Fits core
  batch : p.header.batch = number
  missed : p.header.missed = missed
  firstIndex : p.header.firstIndex = UInt32.ofNat n

/-- Packets of a batch from its sample `n` on: each begins where the one before it ends, and is of
another process. -/
inductive InSequence (core number missed : UInt32) : Nat → List Packet → Prop where
  | nil {n : Nat} : InSequence core number missed n []
  | cons {n : Nat} {p : Packet} {ps : List Packet} (hp : p.Stamped core number missed n)
    (hnext : ∀ q ∈ ps.head?, p.header.pid ≠ q.header.pid)
    (hps : InSequence core number missed (n + p.samples.length) ps) :
    InSequence core number missed n (p :: ps)

namespace InSequence

variable {core number missed : UInt32} {n : Nat} {ps : List Packet}
  (h : InSequence core number missed n ps)
include h

theorem stamped : ∀ p ∈ ps, ∃ m, p.Stamped core number missed m := by
  induction h with
  | nil => simp
  | cons hp _ _ ih =>
    intro q hq
    rcases List.mem_cons.1 hq with rfl | hq
    · exact ⟨_, hp⟩
    · exact ih q hq

/-- Neighbours are of different processes. -/
theorem isChain : ps.IsChain (·.header.pid ≠ ·.header.pid) := by
  induction h with
  | nil => exact List.isChain_nil
  | cons _ hnext _ ih => exact List.isChain_cons.2 ⟨hnext, ih⟩

/-- A packet counts the samples of the packets before it. -/
theorem firstIndex_eq {before after : List Packet} {p : Packet} (hps : ps = before ++ p :: after) :
    p.header.firstIndex = UInt32.ofNat (n + (before.flatMap (·.samples)).length) := by
  induction h generalizing before with
  | nil => simp at hps
  | @cons n q qs hq _ _ ih =>
    cases before with
    | nil =>
      obtain ⟨rfl, rfl⟩ := List.cons_eq_cons.1 hps
      simpa using hq.firstIndex
    | cons r before =>
      obtain ⟨rfl, hqs⟩ := List.cons_eq_cons.1 hps
      rw [ih hqs, List.flatMap_cons, List.length_append, Nat.add_assoc]

/-- The sample lists of packets in sequence are the maximal runs of all samples. -/
theorem map_samples_eq_splitBy :
    ps.map (·.samples) = (ps.flatMap (·.samples)).splitBy (·.pid == ·.pid) := by
  have hne : ∀ p ∈ ps, p.samples ≠ [] := by
    intro p hp
    obtain ⟨m, hm⟩ := h.stamped p hp
    exact hm.fits.ne_nil
  have hpid : ∀ p ∈ ps, ∀ s ∈ p.samples, s.pid = p.header.pid := by
    intro p hp
    obtain ⟨m, hm⟩ := h.stamped p hp
    exact hm.fits.pid
  symm
  rw [List.splitBy_eq_iff]
  refine ⟨(List.flatMap_def ..), ?_, ?_, ?_⟩
  · intro hnil
    obtain ⟨p, hp, hsamples⟩ := List.mem_map.1 hnil
    exact hne p hp hsamples
  · intro run hrun
    obtain ⟨p, hp, rfl⟩ := List.mem_map.1 hrun
    refine (List.pairwise_iff_forall_sublist.2 fun {s t} hst => ?_).isChain
    have hs := hpid p hp s (hst.subset List.mem_cons_self)
    have ht := hpid p hp t (hst.subset (List.mem_cons_of_mem _ List.mem_cons_self))
    rw [hs, ht, beq_self_eq_true]
  · rw [List.isChain_map]
    refine (List.IsChain.imp_of_mem_imp ?_ h.isChain)
    intro p q hp hq hpq
    refine ⟨hne p hp, hne q hq, ?_⟩
    rw [hpid p hp _ (List.getLast_mem _), hpid q hq _ (List.head_mem _)]
    exact beq_false_of_ne hpq

end InSequence

namespace PacketBuilder

variable {l : Type} [MetadataLoader l]

/-- Samples in the course of a batch, each with the identity under which it is added. -/
def identified (core missed : UInt32) :
    List Sample → PacketBuilder → IdentityCache l → List (Sample × Identity)
  | [], _, _ => []
  | s :: ss, b, cache =>
    let (e, cache) := cache.resolve s.pid b.isEmpty
    let b := if b.mustFlush core s e then b.flush.2 else b
    (s, e) :: identified core missed ss (b.push core s e missed) cache

/-- A builder in the course of a batch.  Its pending packet, if there is one, begins with sample `n`
of the batch, and its process is known under the mode that the header names. -/
structure Tracks (b : PacketBuilder) (core number missed : UInt32) (cache : IdentityCache l)
    (n : Nat) : Prop where
  batch : b.batch = number
  index : b.index = UInt32.ofNat (n + b.held.length)
  stamped : ∀ p, b.pending = some p → p.Stamped core number missed n
  known : ∀ p, b.pending = some p →
    ∃ e, cache.get? p.header.pid = some e ∧ e.isKernel = p.header.kernel

section
variable {core number missed : UInt32} {cache : IdentityCache l} {b : PacketBuilder} {n : Nat}

omit [MetadataLoader l] in
theorem tracks_startBatch (core missed : UInt32) (cache : IdentityCache l) (b : PacketBuilder) :
    b.startBatch.Tracks core (b.batch + 1) missed cache 0 where
  batch := rfl
  index := rfl
  stamped _ hp := by cases hp
  known _ hp := by cases hp

/-- Without a pending packet a sample opens one, which begins where the batch has come to. -/
theorem Tracks.push_of_empty (hb : b.Tracks core number missed cache n) (hnone : b.pending = none)
    (hc : cache.Keyed) (s : Sample) (allow : Bool) :
    (b.push core s (cache.resolve s.pid allow).1 missed).Tracks core number missed
      (cache.resolve s.pid allow).2 n := by
  have hheld : b.held = [] := by rw [held, hnone]; rfl
  have hindex : b.index = UInt32.ofNat n := by rw [hb.index, hheld]; rfl
  refine ⟨hb.batch, ?_, ?_, ?_⟩
  · rw [show (b.push core s (cache.resolve s.pid allow).1 missed).index = b.index + 1 from rfl,
      hindex, held, push, hnone]
    simp [extend, opened, UInt32.ofNat_add]
  · rintro p ⟨⟩
    rw [hnone]
    refine ⟨⟨rfl, rfl, by simp [extend], by simp [extend, opened, maxQuantity], rfl, ?_⟩, hb.batch,
      rfl, hindex⟩
    simp [extend, opened]
  · rintro p ⟨⟩
    rw [hnone]
    exact ⟨_, IdentityCache.get?_resolve_self hc s.pid allow, rfl⟩

/-- A pending packet takes a further sample of its process: the process is not looked at again, so
the mode is that of the header, and there is room. -/
theorem Tracks.push_of_same (hb : b.Tracks core number missed cache n) {p : Packet}
    (hp : b.pending = some p) (hroom : p.samples.length < maxQuantity) {s : Sample}
    (hs : p.header.pid = s.pid) :
    ∃ e, cache.resolve s.pid b.isEmpty = (e, cache) ∧ e.isKernel = p.header.kernel ∧
      b.mustFlush core s e = false ∧ (b.push core s e missed).Tracks core number missed cache n := by
  have hstamped := hb.stamped p hp
  obtain ⟨e, hget, hkernel⟩ := hb.known p hp
  have hheld : b.held = p.samples := by rw [held, hp]; rfl
  have hfull : b.isEmpty = false := by rw [isEmpty, hp]; rfl
  refine ⟨e, ?_, hkernel, ?_, hb.batch, ?_, ?_, ?_⟩
  · rw [hfull]
    exact IdentityCache.resolve_known (hs ▸ hget)
  · simp [mustFlush, hp, hkernel, hstamped.fits.core, hs, hroom]
  · rw [show (b.push core s e missed).index = b.index + 1 from rfl, hb.index, hheld, held, push, hp]
    simp [extend, UInt32.ofNat_add, UInt32.add_assoc]
  · rintro q ⟨⟩
    rw [hp]
    refine ⟨⟨hstamped.fits.core, hstamped.fits.counters, by simp [extend], ?_, by simp [extend],
      ?_⟩, hstamped.batch, hstamped.missed, hstamped.firstIndex⟩
    · rw [extend, List.length_append]
      exact hroom
    · intro t ht
      rcases List.mem_append.1 ht with ht | ht
      · exact hstamped.fits.pid t ht
      · rw [List.mem_singleton.1 ht]
        exact hs.symm
  · rintro q ⟨⟩
    rw [hp]
    exact ⟨e, hget, hkernel⟩

/-- A pending packet is closed by a sample of another process. -/
theorem mustFlush_of_other (core : UInt32) {p : Packet} (hp : b.pending = some p) {s : Sample}
    (hs : p.header.pid ≠ s.pid) (e : Identity) : b.mustFlush core s e = true := by
  simp [mustFlush, hp, hs]

omit [MetadataLoader l] in
/-- The builder that is left when the pending packet is taken goes on behind that packet. -/
theorem Tracks.flush (hb : b.Tracks core number missed cache n) :
    b.flush.2.Tracks core number missed cache (n + b.held.length) where
  batch := hb.batch
  index := hb.index
  stamped _ hp := by cases hp
  known _ hp := by cases hp

end

/-! ## Whole batches -/

section
variable {core number missed : UInt32}

/-- The packets that samples lead to, the one that is pending in the end included. -/
def packetsOf (core missed : UInt32) (ss : List Sample) (b : PacketBuilder)
    (cache : IdentityCache l) : List Packet :=
  (addSamples core missed ss b cache).1 ++ (addSamples core missed ss b cache).2.1.pending.toList

section
variable {b : PacketBuilder} {cache cache' : IdentityCache l} {s : Sample} {e : Identity}
  (hresolve : cache.resolve s.pid b.isEmpty = (e, cache')) (ss : List Sample)
include hresolve

theorem packetsOf_cons_of_stay (h : b.mustFlush core s e = false) :
    packetsOf core missed (s :: ss) b cache =
      packetsOf core missed ss (b.push core s e missed) cache' := by
  simp [packetsOf, addSamples, hresolve, h]

theorem packetsOf_cons_of_flush {p : Packet} (hp : b.pending = some p)
    (h : b.mustFlush core s e = true) :
    packetsOf core missed (s :: ss) b cache =
      p :: packetsOf core missed ss (b.flush.2.push core s e missed) cache' := by
  simp [packetsOf, addSamples, hresolve, h, flush, hp]

end

/-- The sample that a builder without a pending packet takes is that of the first packet to come. -/
theorem push_samples_of_empty (core missed : UInt32) {b : PacketBuilder} (hnone : b.pending = none)
    (s : Sample) (e : Identity) :
    ∃ p, (b.push core s e missed).pending = some p ∧ p.header.pid = s.pid ∧
      p.flagged = [(s, e.isKernel)] ∧ (b.push core s e missed).held = [s] := by
  refine ⟨_, rfl, ?_⟩
  simp [held, push, extend, opened, hnone, Packet.flagged]

/-- What comes of adding samples to a builder.  The packets are in sequence from sample `n` on, they
give every sample the mode under which it was added, and they begin with the pending packet, which
may have grown. -/
structure Packed (core number missed : UInt32) (n : Nat) (ss : List Sample) (b : PacketBuilder)
    (cache : IdentityCache l) : Prop where
  inSequence : InSequence core number missed n (packetsOf core missed ss b cache)
  flagged : (packetsOf core missed ss b cache).flatMap Packet.flagged =
    b.pending.toList.flatMap Packet.flagged ++
      (identified core missed ss b cache).map (fun (s, e) => (s, e.isKernel))
  first : ∀ p ∈ b.pending, ∀ q ∈ (packetsOf core missed ss b cache).head?,
    q.header.pid = p.header.pid

namespace Packed

variable {b b' : PacketBuilder} {cache cache' : IdentityCache l} {s : Sample} {e : Identity}
  {ss : List Sample} {n : Nat}

theorem nil (hb : b.Tracks core number missed cache n) : Packed core number missed n [] b cache := by
  cases hp : b.pending with
  | none => constructor <;> simp [packetsOf, addSamples, identified, hp, InSequence.nil]
  | some p =>
    have hseq : InSequence core number missed n [p] := .cons (hb.stamped p hp) (by simp) .nil
    constructor <;> simp [packetsOf, addSamples, identified, hp, hseq]

/-- A sample that opens a packet comes first, and the first packet is of its process. -/
theorem opens (h : Packed core number missed n ss (b.push core s e missed) cache)
    (hnone : b.pending = none) :
    (packetsOf core missed ss (b.push core s e missed) cache).flatMap Packet.flagged =
        (s, e.isKernel) :: (identified core missed ss (b.push core s e missed) cache).map
          (fun (s, e) => (s, e.isKernel)) ∧
      ∀ q ∈ (packetsOf core missed ss (b.push core s e missed) cache).head?,
        q.header.pid = s.pid := by
  obtain ⟨p, hp, hpid, hflagged, -⟩ := push_samples_of_empty core missed hnone s e
  refine ⟨?_, fun q hq => (h.first p hp q hq).trans hpid⟩
  rw [h.flagged, hp]
  simp [hflagged]

section
variable (hresolve : cache.resolve s.pid b.isEmpty = (e, cache'))
include hresolve

theorem cons_of_empty (hp : b.pending = none)
    (h : Packed core number missed n ss (b.push core s e missed) cache') :
    Packed core number missed n (s :: ss) b cache := by
  have hstay : b.mustFlush core s e = false := by simp [mustFlush, hp]
  obtain ⟨hflagged, -⟩ := h.opens hp
  refine ⟨?_, ?_, by simp [hp]⟩
  · rw [packetsOf_cons_of_stay hresolve ss hstay]
    exact h.inSequence
  · rw [packetsOf_cons_of_stay hresolve ss hstay, hflagged]
    simp [identified, hresolve, hstay, hp]

theorem cons_of_same {p : Packet} (hp : b.pending = some p) (hkernel : e.isKernel = p.header.kernel)
    (hstay : b.mustFlush core s e = false)
    (h : Packed core number missed n ss (b.push core s e missed) cache') :
    Packed core number missed n (s :: ss) b cache := by
  have hpush : (b.push core s e missed).pending = some (extend p s) := by rw [push, hp]; rfl
  refine ⟨?_, ?_, fun q hq r hr => ?_⟩
  · rw [packetsOf_cons_of_stay hresolve ss hstay]
    exact h.inSequence
  · rw [packetsOf_cons_of_stay hresolve ss hstay, h.flagged, hpush]
    simp [identified, hresolve, hstay, hp, Packet.flagged, extend, hkernel]
  · rw [packetsOf_cons_of_stay hresolve ss hstay] at hr
    cases hp.symm.trans hq
    exact h.first _ hpush r hr

theorem cons_of_other {p : Packet} (hb : b.Tracks core number missed cache n)
    (hp : b.pending = some p) (hs : p.header.pid ≠ s.pid)
    (h : Packed core number missed (n + b.held.length) ss (b.flush.2.push core s e missed) cache') :
    Packed core number missed n (s :: ss) b cache := by
  have hflush := mustFlush_of_other core hp hs e
  have hheld : b.held = p.samples := by rw [held, hp]; rfl
  obtain ⟨hflagged, hfirst⟩ := h.opens rfl
  have hseq := h.inSequence
  rw [hheld] at hseq
  refine ⟨?_, ?_, fun q hq => ?_⟩
  · rw [packetsOf_cons_of_flush hresolve ss hp hflush]
    refine .cons (hb.stamped p hp) (fun q hq => ?_) hseq
    rw [hfirst q hq]
    exact hs
  · rw [packetsOf_cons_of_flush hresolve ss hp hflush, List.flatMap_cons, hflagged]
    simp [identified, hresolve, hflush, hp]
  · rw [packetsOf_cons_of_flush hresolve ss hp hflush]
    cases hp.symm.trans hq
    simp

end

end Packed

theorem packed (ss : List Sample) {b : PacketBuilder} {cache : IdentityCache l} {n : Nat}
    (hb : b.Tracks core number missed cache n) (hc : cache.Keyed)
    (hroom : b.held.length + ss.length ≤ maxQuantity) :
    Packed core number missed n ss b cache := by
  induction ss generalizing b cache n with
  | nil => exact .nil hb
  | cons s ss ih =>
    rw [List.length_cons] at hroom
    cases hresolve : cache.resolve s.pid b.isEmpty with
    | mk e cache' =>
    -- what the induction gives if the sample opens a packet
    have hopen : ∀ {b' : PacketBuilder} {m : Nat}, b'.Tracks core number missed cache m →
        b'.pending = none → Packed core number missed m ss (b'.push core s e missed) cache' := by
      intro b' m hb' hnone
      have htracks := hb'.push_of_empty hnone hc s b.isEmpty
      have hkeyed := hc.resolve s.pid b.isEmpty
      rw [hresolve] at htracks hkeyed
      obtain ⟨-, -, -, -, hheld⟩ := push_samples_of_empty core missed hnone s e
      exact ih htracks hkeyed (by rw [hheld, List.length_singleton]; omega)
    cases hp : b.pending with
    | none => exact .cons_of_empty hresolve hp (hopen hb hp)
    | some p =>
      have hheld : b.held = p.samples := by rw [held, hp]; rfl
      by_cases hs : p.header.pid = s.pid
      · obtain ⟨e', hknown, hkernel, hstay, htracks⟩ :=
          hb.push_of_same hp (by rw [hheld] at hroom; omega) hs
        obtain ⟨rfl, rfl⟩ := Prod.mk.injEq .. ▸ hresolve.symm.trans hknown
        have hgrown : (b.push core s e missed).held.length = b.held.length + 1 := by
          simp [held, push, hp, extend]
        exact .cons_of_same hresolve hp hkernel hstay (ih htracks hc (by omega))
      · exact .cons_of_other hresolve hb hp hs (hopen hb.flush rfl)

end

/-- **A batch is the maximal runs of its buffer.**  Whatever the builder was at, the packets of a
buffer hold its samples in their order, one packet for each longest run of samples of one process.
Every header counts the samples of its packet and those before it, and every sample was added under
the mode that its header names, so it is never the mode that ends a packet. -/
theorem encodeBuffer_runs {cache : IdentityCache l} (hc : cache.Reachable) (b : PacketBuilder)
    (buffer : Buffer) (missed : UInt32) :
    (b.encodeBuffer buffer cache missed).2.1.isEmpty = true ∧
      ∃ ps, (b.encodeBuffer buffer cache missed).1 = ps ∧
        ps.flatMap (·.samples) = buffer.samples ∧
        ps.map (·.samples) = buffer.samples.splitBy (·.pid == ·.pid) ∧
        ps.IsChain (·.header.pid ≠ ·.header.pid) ∧
        (∀ p ∈ ps, p.samples ≠ [] ∧ (∀ s ∈ p.samples, s.pid = p.header.pid) ∧
          p.header.quantity.toNat = p.samples.length ∧
          p.header.core.toNat = min buffer.core.toNat 255 ∧ p.header.batch = b.batch + 1 ∧
          p.header.missed = missed ∧ p.header.counterCount = 6) ∧
        (∀ before p after, ps = before ++ p :: after →
          p.header.firstIndex.toNat = (before.flatMap (·.samples)).length) ∧
        ps.flatMap (fun p => p.samples.map (·, p.header.kernel)) =
          (identified buffer.core missed buffer.samples b.startBatch cache).map
            (fun (s, e) => (s, e.isKernel)) := by
  have hroom : buffer.samples.length ≤ bufferCapacity := buffer.length_samples ▸ buffer.count_le
  have hmax : bufferCapacity ≤ maxQuantity := by decide
  obtain ⟨hseq, hflags, -⟩ := packed buffer.samples
    (tracks_startBatch buffer.core missed cache b) hc.keyed
    (by rw [show b.startBatch.held = [] from rfl, List.length_nil]; omega)
  have hsamples := (encodeBuffer_samples b buffer cache missed).2
  rw [show (b.encodeBuffer buffer cache missed).1 =
    packetsOf buffer.core missed buffer.samples b.startBatch cache from rfl] at hsamples ⊢
  refine ⟨rfl, _, rfl, hsamples, ?_, hseq.isChain, ?_, ?_, hflags⟩
  · rw [hseq.map_samples_eq_splitBy, hsamples]
  · intro p hp
    obtain ⟨m, hm⟩ := hseq.stamped p hp
    have hlength := hm.fits.room
    refine ⟨hm.fits.ne_nil, hm.fits.pid, ?_, ?_, hm.batch, hm.missed, hm.fits.counters⟩
    · rw [hm.fits.quantity]
      exact UInt8.toNat_ofNat_of_lt' (Nat.lt_of_le_of_lt hlength (by decide))
    · rw [hm.fits.core, wireCore]
      exact UInt8.toNat_ofNat_of_lt' (Nat.lt_of_le_of_lt (Nat.min_le_right ..) (by decide))
  · intro before p after hps
    have hbefore : (before.flatMap (·.samples)).length ≤ buffer.samples.length := by
      rw [← hsamples, hps, List.flatMap_append, List.length_append]
      exact Nat.le_add_right ..
    rw [hseq.firstIndex_eq hps, Nat.zero_add]
    exact UInt32.toNat_ofNat_of_lt' (Nat.lt_of_le_of_lt (hbefore.trans hroom) (by decide))

/-- Two processes on a core that takes no byte, the first of which comes back. -/
def thereAndBack : Buffer :=
  (Buffer.new.reset 300).pushAll ([7, 7, 9, 7].map fun pid => { Sample.zero with pid := pid })

theorem encodeBuffer_runs_there_and_back :
    ((IdentityCache.new ({} : ProcessTable) "zygote" 10).resolve 9 true).2.Reachable ∧
      ∃ ps, (PacketBuilder.encodeBuffer { batch := 4294967295 } thereAndBack
          ((IdentityCache.new ({} : ProcessTable) "zygote" 10).resolve 9 true).2 5).1 = ps ∧
        ps.map (·.samples) = thereAndBack.samples.splitBy (·.pid == ·.pid) ∧
        ps.map (·.samples.length) = [2, 1, 1] := by
  have hc := (IdentityCache.Reachable.new ({} : ProcessTable) "zygote" 10).resolve 9 true
  obtain ⟨-, ps, hps, -, hruns, -⟩ := encodeBuffer_runs hc { batch := 4294967295 } thereAndBack 5
  refine ⟨hc, ps, hps, hruns, ?_⟩
  have hlengths := congrArg (List.map List.length) hruns
  rw [List.map_map] at hlengths
  exact hlengths.trans (by decide)

end PacketBuilder

end CounterTrace
