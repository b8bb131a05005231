import CounterTrace.Identity.ProcessTable
import CounterTrace.Proofs.Capture.History
import CounterTrace.Proofs.Packet.Batches
import CounterTrace.Proofs.Session.Reading

/-!
# Missed samples beside a running capture

While a session reads its buffers the capture goes on and counts the samples that it misses, in 32
bits.  The count that a session stamps on a batch is the difference of two readings, or zero if the
second is the smaller one.  It is the number of samples missed since the baseline as long as the
count has not wrapped, and is zero from then on until the count has passed the baseline again.

    p.readings rounds          what the session reads: a baseline, and then after each round of events
    p.lost rounds i            samples missed in the first `i` rounds
    stamp = (baseline + lost) % 2 ^ 32 - baseline                          (stamps_count_until_wrap)
-/

namespace CounterTrace

/-! ## Readings -/

namespace Pipeline

variable {σ : Type} [CounterSource σ]

/-- What a session beside a capture reads of the count of missed samples: the baseline while the
capture is `p`, and every further reading after one more round of events. -/
def readings (p : Pipeline σ) (rounds : List (List (PipelineEvent σ))) : MissedReadings := fun i =>
  .ok (p.run (rounds.take i).flatten).capture.control.missed

/-- The overflows of the first rounds whose sample was missed. -/
def lost (p : Pipeline σ) (rounds : List (List (PipelineEvent σ))) (i : Nat) : Nat :=
  (p.outcomes (rounds.take i).flatten).count .missed

theorem outcomes_append (p : Pipeline σ) (events more : List (PipelineEvent σ)) :
    p.outcomes (events ++ more) = p.outcomes events ++ (p.run events).outcomes more := by
  induction events generalizing p with
  | nil => rfl
  | cons e events ih =>
    rw [List.cons_append, outcomes, ih, outcomes, List.append_assoc]
    rfl

theorem lost_mono (p : Pipeline σ) (rounds : List (List (PipelineEvent σ))) {i j : Nat}
    (h : i ≤ j) : p.lost rounds i ≤ p.lost rounds j := by
  obtain ⟨more, hmore⟩ := List.take_prefix_take_left h (l := rounds)
  rw [lost, lost, ← hmore, List.flatten_append, outcomes_append, List.count_append]
  exact Nat.le_add_right ..

/-- A reading is the baseline and what was missed since then, in 32 bits. -/
theorem readings_eq (p : Pipeline σ) {rounds : List (List (PipelineEvent σ))}
    (hknob : ∀ round ∈ rounds, ∀ e ∈ round, ¬e.WritesMissed) (i : Nat) :
    p.readings rounds i = .ok (p.capture.control.missed + UInt32.ofNat (p.lost rounds i)) := by
  rw [readings, missed_run]
  · rfl
  · intro e he
    obtain ⟨round, hround, he⟩ := List.mem_flatten.1 he
    exact hknob round (List.mem_of_mem_take hround) e he

end Pipeline

/-! ## Stamps -/

/-- What is stamped after `n` more samples were missed than at the baseline. -/
theorem toNat_missedSince_add (baseline : UInt32) (n : Nat) :
    (missedSince baseline (baseline + UInt32.ofNat n)).toNat =
      (baseline.toNat + n) % UInt32.size - baseline.toNat := by
  rw [toNat_missedSince, UInt32.toNat_add, UInt32.toNat_ofNat', Nat.add_mod_mod]

/-- Up to the wrap the difference is what was counted, and it is nothing from there on. -/
theorem mod_sub_eq {baseline n : Nat} (hbaseline : baseline < UInt32.size) (hn : n < UInt32.size) :
    (baseline + n) % UInt32.size - baseline = if baseline + n < UInt32.size then n else 0 := by
  rw [UInt32.size] at *
  split <;> omega

namespace PacketBuilder

/-- A builder that works with the count of a batch. -/
def Counts (missed : UInt32) (b : PacketBuilder) : Prop :=
  ∀ p, b.pending = some p → p.header.missed = missed

theorem Counts.push {missed : UInt32} {b : PacketBuilder} (hb : b.Counts missed) (core : UInt32)
    (s : Sample) (e : Identity) : (b.push core s e missed).Counts missed := by
  rintro p ⟨⟩
  cases hp : b.pending with
  | none => rfl
  | some q => exact hb q hp

variable {l : Type} [MetadataLoader l]

theorem Counts.addSamples (core : UInt32) {missed : UInt32} (ss : List Sample) {b : PacketBuilder}
    (hb : b.Counts missed) (cache : IdentityCache l) :
    (∀ p ∈ (addSamples core missed ss b cache).1, p.header.missed = missed) ∧
      (PacketBuilder.addSamples core missed ss b cache).2.1.Counts missed := by
  induction ss generalizing b cache with
  | nil =>
    refine ⟨fun p hp => ?_, hb⟩
    cases hp
  | cons s ss ih =>
    rcases hresolve : cache.resolve s.pid b.isEmpty with ⟨e, cache'⟩
    cases hf : b.mustFlush core s e with
    | false =>
      simp only [PacketBuilder.addSamples, hresolve, hf, Bool.false_eq_true, if_false,
        Option.toList_none, List.nil_append]
      exact ih (hb.push core s e) cache'
    | true =>
      have hflushed : b.flush.2.Counts missed := fun q hq => by cases hq
      obtain ⟨hdone, hpending⟩ := ih (hflushed.push core s e) cache'
      simp only [PacketBuilder.addSamples, hresolve, hf, if_true]
      refine ⟨fun p hp => ?_, hpending⟩
      rcases List.mem_append.1 hp with hp | hp
      · exact hb p (Option.mem_toList.1 hp)
      · exact hdone p hp

/-- All packets of a batch are stamped with the count of the batch. -/
theorem missed_encodeBuffer (b : PacketBuilder) (buffer : Buffer) (cache : IdentityCache l)
    (missed : UInt32) :
    ∀ p ∈ (b.encodeBuffer buffer cache missed).1, p.header.missed = missed := by
  have hstart : b.startBatch.Counts missed := fun q hq => by cases hq
  obtain ⟨hdone, hpending⟩ := hstart.addSamples buffer.core buffer.samples cache
  intro p hp
  rcases List.mem_append.1 hp with hp | hp
  · exact hdone p hp
  · exact hpending p (Option.mem_toList.1 hp)

end PacketBuilder

/-! ## Batches beside a capture -/

section
variable {σ : Type} [CounterSource σ] {l : Type} [MetadataLoader l]

/-- The batches of a source, with what was counted until each was read. -/
theorem exists_counted (p : Pipeline σ) {rounds : List (List (PipelineEvent σ))}
    (hknob : ∀ round ∈ rounds, ∀ e ∈ round, ¬e.WritesMissed) (warmup : Nat)
    (source : BufferSource) :
    ∃ items failure, Readout warmup source (p.readings rounds) items failure ∧
      ∀ i (h : i < items.length), items[i].2.toNat =
        (p.capture.control.missed.toNat + p.lost rounds (i + 1)) % UInt32.size -
          p.capture.control.missed.toNat := by
  obtain ⟨items, failure, hread⟩ := exists_readout warmup source (p.readings rounds)
  refine ⟨items, failure, hread, ?_⟩
  cases hread with
  | endedEarly => exact nofun
  | failedEarly => exact nofun
  | noBaseline => exact nofun
  | stamped first hsource hwarmup hbaseline hitems hstops =>
    intro i hi
    obtain ⟨reading, hreading, hstamp⟩ := hitems i hi
    rw [p.readings_eq hknob, Except.ok.injEq] at hreading
    have hbase : p.readings rounds 0 = .ok p.capture.control.missed := rfl
    cases hbase.symm.trans hbaseline
    rw [hstamp, ← hreading, ← toNat_missedSince, toNat_missedSince_add, Nat.add_comm 1]

/-- **Stamps count missed samples until the count wraps.**  While a session reads any source beside
any capture, at whatever count it takes its baseline and whatever happens between its readings,
short of the count being written: every packet of a batch is stamped with the samples missed between
the baseline and the reading for the batch, as long as baseline and missed samples together are
below `2 ^ 32`.  Past that the stamp is zero, until as many samples were missed as the count can
tell.  So a stamp is the number of missed samples if and only if the count has not wrapped or none
was missed, and one stamp is below an earlier one if and only if the count wrapped between the two
and some sample was missed before the earlier. -/
theorem stamps_count_until_wrap (p : Pipeline σ) {rounds : List (List (PipelineEvent σ))}
    (hknob : ∀ round ∈ rounds, ∀ e ∈ round, ¬e.WritesMissed) (warmup : Nat)
    (source : BufferSource) :
    let baseline := p.capture.control.missed.toNat
    let missed := fun i => p.lost rounds (i + 1)
    ∃ items failure, Readout warmup source (p.readings rounds) items failure ∧
      batches warmup source (p.readings rounds) =
        items.map .ok ++ (failure.map .error).toList ∧
      (∀ i (h : i < items.length),
        (∀ (b : PacketBuilder) (cache : IdentityCache l),
          ∀ q ∈ (b.encodeBuffer items[i].1 cache items[i].2).1, q.header.missed = items[i].2) ∧
        items[i].2.toNat = (baseline + missed i) % UInt32.size - baseline ∧
        (missed i < UInt32.size →
          (items[i].2.toNat = missed i ↔ baseline + missed i < UInt32.size ∨ missed i = 0))) ∧
      ∀ i j (hi : i < items.length) (hj : j < items.length), i ≤ j → missed j < UInt32.size →
        (items[j].2 < items[i].2 ↔
          0 < missed i ∧ baseline + missed i < UInt32.size ∧ UInt32.size ≤ baseline + missed j) := by
  intro baseline missed
  have hbaseline : baseline < UInt32.size := p.capture.control.missed.toNat_lt
  obtain ⟨items, failure, hread, hstamps⟩ := exists_counted p hknob warmup source
  refine ⟨items, failure, hread, hread.batches_eq, fun i hi => ⟨?_, hstamps i hi, ?_⟩, ?_⟩
  · exact fun b cache => b.missed_encodeBuffer items[i].1 cache items[i].2
  · intro hmissed
    rw [hstamps i hi, mod_sub_eq hbaseline hmissed]
    split <;> omega
  · intro i j hi hj hij hmissed
    have hmono : missed i ≤ missed j := p.lost_mono rounds (Nat.succ_le_succ hij)
    rw [UInt32.lt_iff_toNat_lt, hstamps i hi, hstamps j hj, mod_sub_eq hbaseline hmissed,
      mod_sub_eq hbaseline (Nat.lt_of_le_of_lt hmono hmissed)]
    split <;> split <;> omega

end

/-- A running capture of one core and one buffer, with a count of missed samples. -/
def crowded (missed : UInt32) : Pipeline SteadyCounters :=
  (Pipeline.new 1 1 { Control.default with missed := missed } {}).run [.start]

/-- Two rounds, in each of which a buffer is read that holds one sample, and one more is missed. -/
def crowding : List (List (PipelineEvent SteadyCounters)) :=
  List.replicate 2 [.overflow 0, .flush, .overflow 0, .drain, .release 0]

/-- The buffers that the session is given. -/
def crowdedSource (missed : UInt32) : BufferSource :=
  ((crowded missed).run crowding.flatten).drained.map .ok

theorem not_writesMissed_crowding : ∀ round ∈ crowding, ∀ e ∈ round, ¬e.WritesMissed := by
  intro round hround e he
  rw [List.eq_of_mem_replicate hround] at he
  simp only [List.mem_cons, List.not_mem_nil, or_false] at he
  rcases he with rfl | rfl | rfl | rfl | rfl <;> exact id

theorem stamps_count_until_wrap_crowded :
    (∀ round ∈ crowding, ∀ e ∈ round, ¬e.WritesMissed) ∧
      ∃ first second : Buffer × UInt32,
        batches 0 (crowdedSource 5) ((crowded 5).readings crowding) =
          [.ok first, .ok second] ∧ first.2.toNat = 1 ∧ second.2.toNat = 2 := by
  obtain ⟨items, failure, -, hbatches, hstamps, -⟩ :=
    stamps_count_until_wrap (l := ProcessTable) (crowded 5) not_writesMissed_crowding 0
      (crowdedSource 5)
  have hread : ∃ first second : Buffer × UInt32,
      batches 0 (crowdedSource 5) ((crowded 5).readings crowding) = [.ok first, .ok second] :=
    ⟨_, _, rfl⟩
  obtain ⟨first, second, hread⟩ := hread
  rw [hread] at hbatches
  obtain ⟨rfl, rfl⟩ : items = [first, second] ∧ failure = none := by
    rcases items with _ | ⟨a, _ | ⟨b, _ | ⟨c, rest⟩⟩⟩ <;> cases failure <;> simp at hbatches
    simp [hbatches]
  exact ⟨not_writesMissed_crowding, first, second, hread,
    (hstamps 0 (by simp)).2.1.trans (by decide), (hstamps 1 (by simp)).2.1.trans (by decide)⟩

/-- A count of `2 ^ 32 - 2` at the baseline has wrapped when the second buffer is read.  Two samples
were missed by then, and the packet of this buffer says none, after one that said one. -/
theorem stamp_zero_after_wrap :
    (∀ round ∈ crowding, ∀ e ∈ round, ¬e.WritesMissed) ∧
      (crowded 4294967294).lost crowding 1 = 1 ∧ (crowded 4294967294).lost crowding 2 = 2 ∧
      ∃ first second : Buffer × UInt32,
        batches 0 (crowdedSource 4294967294) ((crowded 4294967294).readings crowding) =
          [.ok first, .ok second] ∧
        (PacketBuilder.encodeBuffers [first, second] {}
            (IdentityCache.new ({} : ProcessTable) "" 0)).1.map (·.header.missed) = [1, 0] :=
  ⟨not_writesMissed_crowding, by decide, by decide, _, _, rfl, by decide⟩

end CounterTrace
