import CounterTrace.Proofs.Session.Delivery
import CounterTrace.Proofs.Trace.Faults
import CounterTrace.Proofs.Trace.Routing

/-!
# Cores that share a trace

Buffers name their core with 32 bits, packets with eight: every core from 255 on travels as 255.  A
range of cores that ends at 255 or below drops these packets.  A longer one takes them for core 255,
so that the samples of one process on several such cores come together in one trace.

    gathered maxCores key buffers     what buffers hold for a trace, each sample with its core
    samplesOf key done = (gathered maxCores key buffers).map (·.2.arrived)      (split_buffers)
    each trace has one core  ↔  maxCores ≤ 255 ∨ ¬Collide buffers             (cores_apart_iff)
-/

namespace CounterTrace

open TraceWriter Splitter PacketBuilder

namespace Splitter

/-! ## What frames give to traces -/

section
variable {w : Type} [TraceWriter w] {s s' : Splitter (Recorded w)} {r : Except Failure Unit}

/-- A step that gives no samples to any trace, and drops no packet. -/
structure Quiet {w : Type} (s s' : Splitter (Recorded w)) : Prop where
  maxCores : s'.maxCores = s.maxCores
  dropped : s'.stats.dropped = s.stats.dropped
  samples : ∀ key, samplesOf key s'.writer.done = samplesOf key s.writer.done

theorem Quiet.trans {w : Type} {s s₁ s' : Splitter (Recorded w)} (h : Quiet s s₁)
    (h' : Quiet s₁ s') : Quiet s s' where
  maxCores := h'.maxCores.trans h.maxCores
  dropped := h'.dropped.trans h.dropped
  samples key := (h'.samples key).trans (h.samples key)

theorem leave_quiet {key : StreamKey} (hs : s.leave key = (r, s')) : Quiet s s' := by
  unfold leave at hs
  split at hs
  · split at hs
    · next hwrite =>
      cases hs
      refine ⟨rfl, rfl, fun k => ?_⟩
      rw [Recorded.done_of_ok hwrite, samplesOf_concat_of_nil rfl]
    · next hwrite =>
      cases hs
      exact ⟨rfl, rfl, fun k => by rw [Recorded.done_of_error hwrite]⟩
  · cases hs
    exact ⟨rfl, rfl, fun _ => rfl⟩

theorem enter_quiet {key : StreamKey} (hs : s.enter key = (r, s')) : Quiet s s' := by
  unfold enter at hs
  split at hs
  · cases hs
    exact ⟨rfl, rfl, fun _ => rfl⟩
  · split at hs
    · cases hs
      exact ⟨rfl, rfl, fun _ => rfl⟩
    · have hleave := leave_quiet hs
      exact ⟨hleave.maxCores, hleave.dropped, hleave.samples⟩

theorem ensureOpen_quiet {p : Packet} (hs : s.ensureOpen p = (r, s')) : Quiet s s' := by
  unfold ensureOpen at hs
  split at hs
  · cases hs
    exact ⟨rfl, rfl, fun _ => rfl⟩
  · split at hs
    · next location writer hwrite =>
      cases hs
      refine ⟨rfl, rfl, fun k => ?_⟩
      show samplesOf k writer.done = _
      rw [Recorded.done_of_ok hwrite, samplesOf_concat_of_nil rfl]
    · next hwrite =>
      cases hs
      exact ⟨rfl, rfl, fun k => by rw [Recorded.done_of_error hwrite]⟩

theorem describe_quiet {d : Description} (hs : s.process (.description d) = (r, s')) :
    Quiet s s' := by
  rcases hdescribe : TraceWriter.describe s.writer d with ⟨a, writer⟩
  simp only [process, hdescribe] at hs
  cases hs
  refine ⟨rfl, rfl, fun k => ?_⟩
  show samplesOf k writer.done = _
  cases r with
  | ok => rw [Recorded.done_of_ok hdescribe, samplesOf_concat_of_nil rfl]
  | error => rw [Recorded.done_of_error hdescribe]

/-- A packet in range gives its trace its samples, unless its handling fails. -/
theorem processPacket_gives {p : Packet} (hp : p.header.core.toNat < s.maxCores)
    (hs : s.processPacket p = (r, s')) :
    s'.maxCores = s.maxCores ∧ s'.stats.dropped = s.stats.dropped ∧
      ∀ key, samplesOf key s'.writer.done = samplesOf key s.writer.done ++
        (inTrace key (if r.isOk then [p] else [])).flatMap (·.samples) := by
  rw [processPacket, if_pos hp] at hs
  rcases henter : s.enter (keyOf p) with ⟨r₁, s₁⟩
  have h₁ := enter_quiet henter
  rw [henter] at hs
  cases r₁ with
  | error f =>
    cases hs
    exact ⟨h₁.maxCores, h₁.dropped, fun key => by rw [h₁.samples]; exact (List.append_nil _).symm⟩
  | ok =>
    rcases hopen : s₁.ensureOpen p with ⟨r₂, s₂⟩
    have h₂ := h₁.trans (ensureOpen_quiet hopen)
    simp only [andThen, hopen] at hs
    cases r₂ with
    | error f =>
      cases hs
      exact ⟨h₂.maxCores, h₂.dropped, fun key => by rw [h₂.samples]; exact (List.append_nil _).symm⟩
    | ok =>
      simp only [store] at hs
      split at hs
      · next writer hwrite =>
        cases hs
        refine ⟨h₂.maxCores, h₂.dropped, fun key => ?_⟩
        show samplesOf key writer.done = _
        rw [Recorded.done_of_ok hwrite, samplesOf_append, h₂.samples]
        by_cases hkey : keyOf p = key <;> simp [samplesOf, inTrace, hkey, Except.isOk, Except.toBool]
      · next writer hwrite =>
        cases hs
        refine ⟨h₂.maxCores, h₂.dropped, fun key => ?_⟩
        show samplesOf key writer.done = _
        rw [Recorded.done_of_error hwrite, h₂.samples]
        exact (List.append_nil _).symm

/-- Packets in range give their traces their samples, but for those whose handling fails. -/
theorem processEach_gives (ps : List Packet) (hps : ∀ p ∈ ps, p.header.core.toNat < s.maxCores) :
    (processEach (ps.map .packet) s).2.stats.dropped = s.stats.dropped ∧
      ∀ key, ∃ given, given.Sublist ((inTrace key ps).flatMap (·.samples)) ∧
        ((∀ r ∈ (processEach (ps.map .packet) s).1, r = .ok ()) →
          given = (inTrace key ps).flatMap (·.samples)) ∧
        samplesOf key (processEach (ps.map .packet) s).2.writer.done =
          samplesOf key s.writer.done ++ given := by
  induction ps generalizing s with
  | nil => exact ⟨rfl, fun _ => ⟨[], .slnil, fun _ => rfl, (List.append_nil _).symm⟩⟩
  | cons p ps ih =>
    rcases hprocess : s.processPacket p with ⟨r, s₁⟩
    obtain ⟨hmax, hdropped₁, hgives⟩ := processPacket_gives (hps p List.mem_cons_self) hprocess
    obtain ⟨hdropped, hrest⟩ := ih fun q hq => hmax ▸ hps q (List.mem_cons_of_mem _ hq)
    simp only [List.map_cons, processEach, process, hprocess]
    refine ⟨hdropped.trans hdropped₁, fun key => ?_⟩
    obtain ⟨given, hgiven, hall, hsamples⟩ := hrest key
    have hcons : inTrace key (p :: ps) = inTrace key [p] ++ inTrace key ps :=
      inTrace_append key [p] ps
    rw [hcons, List.flatMap_append, hsamples, hgives, List.append_assoc]
    refine ⟨_, List.Sublist.append ?_ hgiven, fun hok => ?_, rfl⟩
    · cases r with
      | ok => exact List.Sublist.refl _
      | error => exact List.nil_sublist _
    · rw [hok r List.mem_cons_self, hall fun q hq => hok q (List.mem_cons_of_mem _ hq)]
      rfl

end

/-- Frames that are handled to the last are all handled without a failure. -/
theorem processEach_of_processAll {w : Type} [TraceWriter w] (frames : List Frame)
    {s s' : Splitter w} {n : Nat} (h : processAll frames s = (.ok (), s', n)) :
    ∀ r ∈ (processEach frames s).1, r = .ok () := by
  induction frames generalizing s n with
  | nil => simp [processEach]
  | cons f frames ih =>
    rcases hprocess : s.process f with ⟨r, s₁⟩
    simp only [processAll, hprocess] at h
    simp only [processEach, hprocess]
    cases r with
    | error e => cases h
    | ok =>
      rcases hrest : processAll frames s₁ with ⟨r', s₂, m⟩
      simp only [hrest, Prod.mk.injEq] at h
      obtain ⟨rfl, rfl, -⟩ := h
      intro r hr
      rcases List.mem_cons.1 hr with rfl | hr
      · rfl
      · exact ih hrest r hr

/-- With a writer that never fails, nothing does. -/
theorem processEach_of_neverFails {w : Type} [TraceWriter w] {j : w} (hj : NeverFails j)
    (maxCores : Nat) (frames : List Frame) :
    ∀ r ∈ (processEach frames (new (⟨j, []⟩ : Recorded w) maxCores)).1, r = .ok () := by
  obtain ⟨s, hrun, -⟩ := processAll_filed hj (filed_new j maxCores) frames
  have hok := processEach_of_processAll frames hrun
  rwa [show new j maxCores = (new (⟨j, []⟩ : Recorded w) maxCores).unrecorded from rfl,
    processEach_unrecorded] at hok

end Splitter

/-! ## Buffers and the cores of their samples -/

/-- The samples that buffers hold for a trace of a core in range, each with the core that it was
captured on: those of its process on the cores that travel as its core. -/
def gathered (maxCores : Nat) (key : StreamKey) (buffers : List (Buffer × UInt32)) :
    List (UInt32 × Sample) :=
  if key.core.toNat < maxCores then
    buffers.flatMap fun b =>
      if wireCore b.1.core = key.core then
        (b.1.samples.filter (·.pid = key.pid)).map (b.1.core, ·)
      else []
  else []

/-- Two of the cores that travel as 255 hold samples of one process. -/
def Collide (buffers : List (Buffer × UInt32)) : Prop :=
  ∃ a ∈ buffers, ∃ b ∈ buffers, 255 ≤ a.1.core.toNat ∧ 255 ≤ b.1.core.toNat ∧
    a.1.core ≠ b.1.core ∧ ∃ s ∈ a.1.samples, ∃ t ∈ b.1.samples, s.pid = t.pid

section
variable {maxCores : Nat} {key : StreamKey} {buffers : List (Buffer × UInt32)}

theorem mem_gathered {core : UInt32} {s : Sample} :
    (core, s) ∈ gathered maxCores key buffers ↔
      min core.toNat 255 = key.core.toNat ∧ key.core.toNat < maxCores ∧ s.pid = key.pid ∧
        ∃ b ∈ buffers, b.1.core = core ∧ s ∈ b.1.samples := by
  rw [gathered, ← toNat_wireCore_eq_min, UInt8.toNat_inj]
  constructor
  · intro hmem
    split at hmem
    · next hrange =>
      obtain ⟨b, hb, hmem⟩ := List.mem_flatMap.1 hmem
      split at hmem
      · next hc =>
        obtain ⟨t, ht, heq⟩ := List.mem_map.1 hmem
        cases heq
        obtain ⟨hs, hpid⟩ := List.mem_filter.1 ht
        exact ⟨hc, hrange, of_decide_eq_true hpid, b, hb, rfl, hs⟩
      · cases hmem
    · cases hmem
  · rintro ⟨hc, hrange, hpid, b, hb, rfl, hs⟩
    rw [if_pos hrange]
    refine List.mem_flatMap.2 ⟨b, hb, ?_⟩
    rw [if_pos hc]
    exact List.mem_map_of_mem (List.mem_filter.2 ⟨hs, decide_eq_true hpid⟩)

/-- Every trace has samples of one core, unless two cores collide and the range takes in 255. -/
theorem gathered_apart_iff :
    (∀ key, ∀ a ∈ gathered maxCores key buffers, ∀ b ∈ gathered maxCores key buffers, a.1 = b.1) ↔
      maxCores ≤ 255 ∨ ¬Collide buffers := by
  constructor
  · intro hapart
    by_contra hnot
    simp only [not_or, not_not, Nat.not_le] at hnot
    obtain ⟨hrange, a, ha, b, hb, hacore, hbcore, hne, s, hs, t, ht, hpid⟩ := hnot
    have hfirst : (a.1.core, s) ∈ gathered maxCores ⟨255, s.pid⟩ buffers :=
      mem_gathered.2 ⟨Nat.min_eq_right hacore, hrange, rfl, a, ha, rfl, hs⟩
    have hsecond : (b.1.core, t) ∈ gathered maxCores ⟨255, s.pid⟩ buffers :=
      mem_gathered.2 ⟨Nat.min_eq_right hbcore, hrange, hpid.symm, b, hb, rfl, ht⟩
    exact hne (hapart _ _ hfirst _ hsecond)
  · rintro hsafe key ⟨ca, s⟩ ha ⟨cb, t⟩ hb
    obtain ⟨hacore, hrange, hapid, a, ha', rfl, hs⟩ := mem_gathered.1 ha
    obtain ⟨hbcore, -, hbpid, b, hb', rfl, ht⟩ := mem_gathered.1 hb
    by_contra hne
    have hne' : a.1.core.toNat ≠ b.1.core.toNat := fun h => hne (UInt32.toNat_inj.1 h)
    rcases hsafe with hsafe | hsafe
    · omega
    · exact hsafe ⟨a, ha', b, hb', by omega, by omega, hne, s, hs, t, ht, hapid.trans hbpid.symm⟩

/-- Every trace has samples of its own core only, unless a core does not fit its byte and the range
takes in 255. -/
theorem gathered_own_iff :
    (∀ key, ∀ a ∈ gathered maxCores key buffers, a.1.toNat = key.core.toNat) ↔
      maxCores ≤ 255 ∨ ∀ b ∈ buffers, 255 < b.1.core.toNat → b.1.samples = [] := by
  constructor
  · intro hown
    by_cases hrange : maxCores ≤ 255
    · exact .inl hrange
    · refine .inr fun b hb hcore => List.eq_nil_iff_forall_not_mem.2 fun s hs => ?_
      have hmem : (b.1.core, s) ∈ gathered maxCores ⟨255, s.pid⟩ buffers :=
        mem_gathered.2 ⟨Nat.min_eq_right (by omega), by simpa using hrange, rfl, b, hb, rfl, hs⟩
      have := hown _ _ hmem
      simp only [UInt8.reduceToNat] at this
      omega
  · rintro hsafe key ⟨core, s⟩ hmem
    obtain ⟨hcore, hrange, -, b, hb, rfl, hs⟩ := mem_gathered.1 hmem
    rcases hsafe with hsafe | hsafe
    · show b.1.core.toNat = _
      omega
    · by_cases hfits : b.1.core.toNat ≤ 255
      · show b.1.core.toNat = _
        omega
      · rw [hsafe b hb (by omega)] at hs
        cases hs

end

section
variable {l : Type} [MetadataLoader l]

/-- The packets of buffers that are in range have in a trace what is gathered for it. -/
theorem flatMap_inTrace_inRange (maxCores : Nat) (buffers : List (Buffer × UInt32))
    (builder : PacketBuilder) (cache : IdentityCache l) (key : StreamKey) :
    (inTrace key (inRange maxCores (encodeBuffers buffers builder cache).1)).flatMap (·.samples) =
      (gathered maxCores key buffers).map (·.2) := by
  rw [gathered]
  split
  · next hrange =>
    rw [inTrace_inRange_of_lt hrange, flatMap_inTrace_wireCore, List.map_flatMap]
    refine List.flatMap_congr fun b _ => ?_
    split
    · rw [List.map_map]
      exact (List.map_id _).symm
    · rfl
  · next hrange =>
    have hnone : inTrace key (inRange maxCores (encodeBuffers buffers builder cache).1) = [] := by
      refine List.filter_eq_nil_iff.2 fun p hp hkey => hrange ?_
      rw [← of_decide_eq_true hkey]
      exact of_decide_eq_true (List.mem_filter.1 hp).2
    rw [hnone]
    rfl

/-- The packets of buffers that are out of range have the samples of the buffers whose core, as it
travels, is out of range. -/
theorem flatMap_outOfRange (maxCores : Nat) (buffers : List (Buffer × UInt32))
    (builder : PacketBuilder) (cache : IdentityCache l) :
    ((encodeBuffers buffers builder cache).1.filter (maxCores ≤ ·.header.core.toNat)).flatMap
        (·.samples) =
      (buffers.filter (maxCores ≤ min ·.1.core.toNat 255)).flatMap (·.1.samples) := by
  induction buffers generalizing builder cache with
  | nil => rfl
  | cons b buffers ih =>
    obtain ⟨hfits, hsamples⟩ := encodeBuffer_samples builder b.1 cache b.2
    have hcore : ∀ p ∈ (builder.encodeBuffer b.1 cache b.2).1,
        p.header.core.toNat = min b.1.core.toNat 255 := by
      intro p hp
      rw [(hfits p hp).core, toNat_wireCore_eq_min]
    rw [encodeBuffers_cons, List.filter_append, List.flatMap_append, ih]
    by_cases hout : maxCores ≤ min b.1.core.toNat 255
    · have hall : (builder.encodeBuffer b.1 cache b.2).1.filter (maxCores ≤ ·.header.core.toNat) =
          (builder.encodeBuffer b.1 cache b.2).1 :=
        List.filter_eq_self.2 fun p hp => by rw [hcore p hp]; exact decide_eq_true hout
      rw [hall, hsamples, List.filter_cons_of_pos (by simpa using hout), List.flatMap_cons]
    · have hnone : (builder.encodeBuffer b.1 cache b.2).1.filter
          (maxCores ≤ ·.header.core.toNat) = [] :=
        List.filter_eq_nil_iff.2 fun p hp => by rw [hcore p hp]; simpa using hout
      rw [hnone, List.filter_cons_of_neg (by simpa using hout)]
      rfl

end

/-! ## Splitting the session of any buffers -/

section
variable {l : Type} [MetadataLoader l] {w : Type} [TraceWriter w]

/-- The session of any buffers: what is gathered for a trace is what it is given, unless a call of
the writer fails. -/
theorem split_buffers (j : w) (maxCores : Nat) (buffers : List (Buffer × UInt32))
    (builder : PacketBuilder) (cache : IdentityCache l) (d : Description)
    {pieces : List (List UInt8)}
    (hpieces : pieces.flatten =
      (.description d :: (encodeBuffers buffers builder cache).1.map .packet : List Frame).flatMap
        Frame.wire) :
    ∃ frames left, ∃ s : Splitter (Recorded w),
      (FrameDecoder.ofSession maxCores).run ⟨pieces, none⟩ = (frames, .clean, left) ∧
      left.input = [] ∧
      left.dropped = { coreOutOfRange :=
        (encodeBuffers buffers builder cache).1.countP (maxCores ≤ ·.header.core.toNat) } ∧
      (processEach frames (new ⟨j, []⟩ maxCores)).2 = s ∧ s.stats.dropped = 0 ∧
      ∀ key,
        (samplesOf key s.writer.done).Sublist
          ((gathered maxCores key buffers).map (·.2.arrived)) ∧
        (NeverFails j →
          samplesOf key s.writer.done = (gathered maxCores key buffers).map (·.2.arrived)) := by
  have hfits : ∀ p ∈ (encodeBuffers buffers builder cache).1, ∃ core : UInt32, p.Fits core := by
    intro p hp
    obtain ⟨b, -, hfit⟩ := encodeBuffers_fits buffers builder cache p hp
    exact ⟨b.1.core, hfit⟩
  have hrun := run_packets maxCores d hfits hpieces
  have hgathered := flatMap_inTrace_inRange maxCores buffers builder cache
  generalize (encodeBuffers buffers builder cache).1 = ps at hfits hrun hgathered ⊢
  generalize hd : (⟨Utf8.decodeLenient ((Utf8.encode d.text).filter (· != 0))⟩ : Description) = d'
    at hrun
  generalize hqs : (inRange maxCores ps).map Packet.arrived = qs at hrun
  have hrange : ∀ q ∈ qs, q.header.core.toNat < maxCores := by
    intro q hq
    rw [← hqs] at hq
    obtain ⟨p, hp, rfl⟩ := List.mem_map.1 hq
    obtain ⟨hmem, hcore⟩ := List.mem_filter.1 hp
    obtain ⟨core, hfit⟩ := hfits p hmem
    rw [hfit.arrived_eq]
    exact of_decide_eq_true hcore
  have hgiven : ∀ key, (inTrace key qs).flatMap (·.samples) =
      (gathered maxCores key buffers).map (·.2.arrived) := by
    intro key
    have hfits' : ∀ p ∈ inRange maxCores ps, ∃ core : UInt32, p.Fits core :=
      fun p hp => hfits p (List.mem_filter.1 hp).1
    rw [← hqs, inTrace_arrived hfits', hgathered, List.map_map]
    rfl
  -- the description comes first, and changes nothing for the packets
  rcases hdescribe : (new (⟨j, []⟩ : Recorded w) maxCores).process (.description d') with ⟨r, s₁⟩
  have hquiet := describe_quiet hdescribe
  obtain ⟨hdropped, hgives⟩ :=
    processEach_gives qs fun q hq => lt_of_lt_of_eq (hrange q hq) hquiet.maxCores.symm
  refine ⟨_, _, _, hrun, rfl, rfl, rfl, ?_, fun key => ?_⟩
  · simp only [processEach, hdescribe]
    exact hdropped.trans hquiet.dropped
  · obtain ⟨given, hpart, hall, hsamples⟩ := hgives key
    simp only [processEach, hdescribe]
    rw [hsamples, hquiet.samples, ← hgiven key]
    refine ⟨hpart, fun hj => ?_⟩
    have hok := processEach_of_neverFails hj maxCores (.description d' :: qs.map .packet)
    simp only [processEach, hdescribe] at hok
    exact hall fun r hr => hok r (List.mem_cons_of_mem _ hr)

/-- **Cores share a trace only as 255.**  Whatever buffers are encoded, of whatever cores, with any
identities, however the written session is cut, for every range of cores and whichever calls of the
writer fail: no byte is left over, and a trace is given samples of its process that were captured on
cores which travel as its core, in their order, and all of them unless a call fails.  Packets are
dropped and counted if their core, as it travels, is out of range, and they hold exactly the samples
of the buffers of such cores.

Traces hold samples of one core each if and only if the range ends at 255 or below, or no two cores
from 255 on hold samples of one process.  They hold samples of their own core only if and only if
the range ends there, or no buffer of a core above 255 has any samples. -/
theorem cores_apart_iff (j : w) (maxCores : Nat) (buffers : List (Buffer × UInt32))
    (builder : PacketBuilder) (cache : IdentityCache l) (d : Description)
    {pieces : List (List UInt8)}
    (hpieces : pieces.flatten =
      (.description d :: (encodeBuffers buffers builder cache).1.map .packet : List Frame).flatMap
        Frame.wire) :
    ∃ frames left, ∃ s : Splitter (Recorded w),
      ((FrameDecoder.ofSession maxCores).run ⟨pieces, none⟩ = (frames, .clean, left) ∧
        left.input = [] ∧
        left.dropped = { coreOutOfRange :=
          (encodeBuffers buffers builder cache).1.countP (maxCores ≤ ·.header.core.toNat) } ∧
        ((encodeBuffers buffers builder cache).1.filter
            (maxCores ≤ ·.header.core.toNat)).flatMap (·.samples) =
          (buffers.filter (maxCores ≤ min ·.1.core.toNat 255)).flatMap (·.1.samples)) ∧
      ((processEach frames (new ⟨j, []⟩ maxCores)).2 = s ∧ s.stats.dropped = 0 ∧
        ∀ key,
          (samplesOf key s.writer.done).Sublist
            ((gathered maxCores key buffers).map (·.2.arrived)) ∧
          (NeverFails j →
            samplesOf key s.writer.done = (gathered maxCores key buffers).map (·.2.arrived))) ∧
      ((∀ key, ∀ a ∈ gathered maxCores key buffers, ∀ b ∈ gathered maxCores key buffers,
          a.1 = b.1) ↔ maxCores ≤ 255 ∨ ¬Collide buffers) ∧
      ((∀ key, ∀ a ∈ gathered maxCores key buffers, a.1.toNat = key.core.toNat) ↔
        maxCores ≤ 255 ∨ ∀ b ∈ buffers, 255 < b.1.core.toNat → b.1.samples = []) := by
  obtain ⟨frames, left, s, hrun, hinput, hdropped, hsplit, hnone, hgiven⟩ :=
    split_buffers j maxCores buffers builder cache d hpieces
  have hlost := flatMap_outOfRange maxCores buffers builder cache
  exact ⟨frames, left, s, ⟨hrun, hinput, hdropped, hlost⟩, ⟨hsplit, hnone, hgiven⟩,
    gathered_apart_iff, gathered_own_iff⟩

end

/-- One sample of process 7 on core 3, and one on core 300. -/
def farApart : List (Buffer × UInt32) :=
  [((Buffer.new.reset 3).push ⟨10, 7, Vector.replicate maxCounters 1⟩, 0),
    ((Buffer.new.reset 300).push ⟨20, 7, Vector.replicate maxCounters 2⟩, 0)]

/-- In a range of four cores, the packet of core 300 is dropped. -/
theorem cores_apart_iff_far_apart :
    [(.description ⟨"d"⟩ :: (encodeBuffers farApart {}
        (IdentityCache.new ({} : ProcessTable) "" 0)).1.map .packet : List Frame).flatMap
          Frame.wire].flatten =
      (.description ⟨"d"⟩ :: (encodeBuffers farApart {}
        (IdentityCache.new ({} : ProcessTable) "" 0)).1.map .packet : List Frame).flatMap
          Frame.wire ∧
    ∃ frames left, ∃ s : Splitter (Recorded TraceJournal),
      (FrameDecoder.ofSession 4).run
          ⟨[(.description ⟨"d"⟩ :: (encodeBuffers farApart {}
              (IdentityCache.new ({} : ProcessTable) "" 0)).1.map .packet : List Frame).flatMap
                Frame.wire], none⟩ = (frames, .clean, left) ∧
        left.dropped = { coreOutOfRange := 1 } ∧
        (processEach frames (new ⟨({} : TraceJournal), []⟩ 4)).2 = s ∧
        samplesOf ⟨3, 7⟩ s.writer.done = [⟨10, 7, Vector.replicate maxCounters 1⟩] ∧
        samplesOf ⟨255, 7⟩ s.writer.done = [] := by
  have hj : NeverFails ({} : TraceJournal) := TraceJournal.neverFails rfl
  obtain ⟨frames, left, s, ⟨hrun, -, hdropped, -⟩, ⟨hsplit, -, hgiven⟩, -⟩ :=
    cores_apart_iff ({} : TraceJournal) 4 farApart {}
      (IdentityCache.new ({} : ProcessTable) "" 0) ⟨"d"⟩ (List.flatten_singleton ..)
  refine ⟨List.flatten_singleton .., frames, left, s, hrun, ?_, hsplit, ?_, ?_⟩
  · rw [hdropped]
    decide
  · rw [(hgiven ⟨3, 7⟩).2 hj]
    decide
  · rw [(hgiven ⟨255, 7⟩).2 hj]
    decide

/-- One sample of process 7 on core 255, and one on core 300. -/
def colliding : List (Buffer × UInt32) :=
  [((Buffer.new.reset 255).push ⟨10, 7, Vector.replicate maxCounters 1⟩, 0),
    ((Buffer.new.reset 300).push ⟨20, 7, Vector.replicate maxCounters 2⟩, 0)]

/-- In a range of 256 cores nothing is dropped, and the trace of core 255 is given the sample of
core 300, too. -/
theorem colliding_cores_share_trace :
    ∃ frames left, ∃ s : Splitter (Recorded TraceJournal),
      (FrameDecoder.ofSession 256).run
          ⟨[(.description ⟨"d"⟩ :: (encodeBuffers colliding {}
              (IdentityCache.new ({} : ProcessTable) "" 0)).1.map .packet : List Frame).flatMap
                Frame.wire], none⟩ = (frames, .clean, left) ∧
        left.dropped = {} ∧
        (processEach frames (new ⟨({} : TraceJournal), []⟩ 256)).2 = s ∧ s.stats.dropped = 0 ∧
        samplesOf ⟨255, 7⟩ s.writer.done =
          [⟨10, 7, Vector.replicate maxCounters 1⟩, ⟨20, 7, Vector.replicate maxCounters 2⟩] ∧
        gathered 256 ⟨255, 7⟩ colliding =
          [(255, ⟨10, 7, Vector.replicate maxCounters 1⟩),
            (300, ⟨20, 7, Vector.replicate maxCounters 2⟩)] := by
  have hj : NeverFails ({} : TraceJournal) := TraceJournal.neverFails rfl
  obtain ⟨frames, left, s, hrun, -, hdropped, hsplit, hnone, hgiven⟩ :=
    split_buffers ({} : TraceJournal) 256 colliding {}
      (IdentityCache.new ({} : ProcessTable) "" 0) ⟨"d"⟩ (List.flatten_singleton ..)
  refine ⟨frames, left, s, hrun, ?_, hsplit, hnone, ?_, by decide⟩
  · rw [hdropped]
    decide
  · rw [(hgiven ⟨255, 7⟩).2 hj]
    decide

end CounterTrace
