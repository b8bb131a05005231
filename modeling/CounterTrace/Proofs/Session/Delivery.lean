import Mathlib.Data.List.Basic
import CounterTrace.Identity.ProcessTable
import CounterTrace.Proofs.Frame.Skipping
import CounterTrace.Proofs.Packet.Batches
import CounterTrace.Proofs.Trace.Splitting

/-!
# From buffers to traces

Buffers are encoded as packets, written as a session, decoded and split.  Every trace then holds the
samples that its process left on its core, in the order in which they were captured.

    samplesOf key calls         what a trace was given by calls
    captured key buffers        what buffers hold for it
    samplesOf key calls = (captured key buffers).map arrived      when the session has been split
-/

namespace CounterTrace

open TraceWriter Splitter PacketBuilder

/-! ## What a trace is given -/

theorem samplesOf_filing (key : StreamKey) (filed : List Packet) (p : Packet) :
    samplesOf key (filing filed p) = if keyOf p = key then p.samples else [] := by
  have hleaving : samplesOf key (leaving filed p) = [] := by
    unfold leaving
    split
    · rfl
    · split <;> rfl
  have hopening : samplesOf key (opening filed p) = [] := by
    unfold opening
    split <;> rfl
  rw [filing, samplesOf_append, samplesOf_append, hleaving, hopening]
  simp [samplesOf]

/-- A trace is given the samples of its packets. -/
theorem samplesOf_filings (key : StreamKey) (filed ps : List Packet) :
    samplesOf key (filings filed ps) = (inTrace key ps).flatMap (·.samples) := by
  induction ps generalizing filed with
  | nil => rfl
  | cons p ps ih =>
    rw [filings, samplesOf_append, samplesOf_filing, ih]
    by_cases h : keyOf p = key <;> simp [inTrace, h]

/-- A trace is opened if it has a packet. -/
theorem openTrace_mem_filings (key : StreamKey) (ps : List Packet) :
    (∃ c e, .openTrace key c e ∈ filings [] ps) ↔ key ∈ ps.map keyOf := by
  have habout : ∀ c e, .openTrace key c e ∈ filings [] ps ↔
      .openTrace key c e ∈ (filings [] ps).filter (about key) := by
    intro c e
    simp [about, WriterCall.key?]
  simp only [habout, filings_about, traceCalls]
  cases hin : inTrace key ps with
  | nil => simpa using inTrace_eq_nil_iff.1 hin
  | cons first rest =>
    refine ⟨fun _ => ?_, fun _ => ⟨first.cmdline, first.executable, List.mem_cons_self⟩⟩
    by_contra hnot
    rw [inTrace_eq_nil_iff.2 hnot] at hin
    cases hin

/-! ## What buffers hold for a trace -/

/-- The samples that buffers hold for a trace. -/
def captured (key : StreamKey) (buffers : List (Buffer × UInt32)) : List Sample :=
  buffers.flatMap fun b =>
    if b.1.core.toNat = key.core.toNat then b.1.samples.filter (·.pid = key.pid) else []

theorem captured_ne_nil_iff {key : StreamKey} {buffers : List (Buffer × UInt32)} :
    captured key buffers ≠ [] ↔
      ∃ b ∈ buffers, b.1.core.toNat = key.core.toNat ∧ ∃ s ∈ b.1.samples, s.pid = key.pid := by
  rw [captured, ne_eq, List.flatMap_eq_nil_iff]
  constructor
  · intro h
    by_contra hnone
    refine h fun b hb => ?_
    split
    · next hc =>
      refine List.filter_eq_nil_iff.2 fun s hs => ?_
      rw [decide_eq_true_eq]
      exact fun hpid => hnone ⟨b, hb, hc, s, hs, hpid⟩
    · rfl
  · rintro ⟨b, hb, hc, s, hs, hpid⟩ hall
    have hnil := hall b hb
    rw [if_pos hc, List.filter_eq_nil_iff] at hnil
    exact hnil s hs (decide_eq_true hpid)

/-- A trace has a packet if its packets, none of which is empty, have a sample. -/
theorem mem_map_keyOf_iff {ps : List Packet} (hps : ∀ p ∈ ps, p.samples ≠ []) {key : StreamKey} :
    key ∈ ps.map keyOf ↔ (inTrace key ps).flatMap (·.samples) ≠ [] := by
  rw [ne_eq, List.flatMap_eq_nil_iff, List.mem_map]
  constructor
  · rintro ⟨p, hp, hkey⟩ hall
    exact hps p hp (hall p (List.mem_filter.2 ⟨hp, decide_eq_true hkey⟩))
  · intro h
    by_contra hnone
    refine h fun p hp => ?_
    obtain ⟨hmem, hkey⟩ := List.mem_filter.1 hp
    exact absurd ⟨p, hmem, of_decide_eq_true hkey⟩ hnone

/-- Packets that fit a core have the samples of one of its processes in the trace of the process, on
the core as it travels. -/
theorem flatMap_inTrace_of_fits {core : UInt32} {ps : List Packet} (hps : ∀ p ∈ ps, p.Fits core)
    (key : StreamKey) :
    (inTrace key ps).flatMap (·.samples) =
      if wireCore core = key.core then (ps.flatMap (·.samples)).filter (·.pid = key.pid)
      else [] := by
  induction ps with
  | nil => simp [inTrace]
  | cons p ps ih =>
    have hp := hps p List.mem_cons_self
    have hrest := ih fun q hq => hps q (List.mem_cons_of_mem _ hq)
    have hkey : keyOf p = key ↔ wireCore core = key.core ∧ p.header.pid = key.pid := by
      rw [keyOf_eq_iff, hp.core]
    by_cases hc : wireCore core = key.core
    · by_cases hpid : p.header.pid = key.pid
      · have hself : p.samples.filter (·.pid = key.pid) = p.samples :=
          List.filter_eq_self.2 fun s hs => by simp [hp.pid s hs, hpid]
        have hcons : inTrace key (p :: ps) = p :: inTrace key ps :=
          List.filter_cons_of_pos (by simpa using hkey.2 ⟨hc, hpid⟩)
        rw [hcons, List.flatMap_cons, hrest, if_pos hc, if_pos hc, List.flatMap_cons,
          List.filter_append, hself]
      · have hnone : p.samples.filter (·.pid = key.pid) = [] :=
          List.filter_eq_nil_iff.2 fun s hs => by simp [hp.pid s hs, hpid]
        have hcons : inTrace key (p :: ps) = inTrace key ps :=
          List.filter_cons_of_neg (by simpa using fun h => hpid (hkey.1 h).2)
        rw [hcons, hrest, if_pos hc, if_pos hc, List.flatMap_cons, List.filter_append, hnone,
          List.nil_append]
    · have hcons : inTrace key (p :: ps) = inTrace key ps :=
        List.filter_cons_of_neg (by simpa using fun h => hc (hkey.1 h).1)
      rw [hcons, hrest, if_neg hc, if_neg hc]

section
variable {l : Type} [MetadataLoader l]

/-- The packets of buffers have in a trace the samples of its process on the cores that travel as
its core. -/
theorem flatMap_inTrace_wireCore (buffers : List (Buffer × UInt32)) (builder : PacketBuilder)
    (cache : IdentityCache l) (key : StreamKey) :
    (inTrace key (encodeBuffers buffers builder cache).1).flatMap (·.samples) =
      buffers.flatMap fun b =>
        if wireCore b.1.core = key.core then b.1.samples.filter (·.pid = key.pid) else [] := by
  induction buffers generalizing builder cache with
  | nil => rfl
  | cons b buffers ih =>
    obtain ⟨hfits, hsamples⟩ := encodeBuffer_samples builder b.1 cache b.2
    have hbatch := flatMap_inTrace_of_fits hfits key
    rw [hsamples] at hbatch
    rw [encodeBuffers_cons, inTrace_append, List.flatMap_append, hbatch, ih, List.flatMap_cons]

/-- The packets of buffers have in a trace what the buffers hold for it. -/
theorem flatMap_inTrace_encodeBuffers {buffers : List (Buffer × UInt32)}
    (hcores : ∀ b ∈ buffers, b.1.core.toNat < 256) (builder : PacketBuilder)
    (cache : IdentityCache l) (key : StreamKey) :
    (inTrace key (encodeBuffers buffers builder cache).1).flatMap (·.samples) =
      captured key buffers := by
  rw [flatMap_inTrace_wireCore, captured]
  refine List.flatMap_congr fun b hb => ?_
  simp only [← UInt8.toNat_inj, toNat_wireCore (hcores b hb)]

end

/-! ## Delivery -/

theorem inTrace_arrived {ps : List Packet}
    (hps : ∀ p ∈ ps, ∃ core : UInt32, p.Fits core) (key : StreamKey) :
    (inTrace key (ps.map Packet.arrived)).flatMap (·.samples) =
      ((inTrace key ps).flatMap (·.samples)).map Sample.arrived := by
  induction ps with
  | nil => rfl
  | cons p ps ih =>
    have hrest := ih fun q hq => hps q (List.mem_cons_of_mem _ hq)
    obtain ⟨core, hp⟩ := hps p List.mem_cons_self
    have hkey : keyOf p.arrived = keyOf p := by
      rw [hp.arrived_eq]
      rfl
    have hsamples : p.arrived.samples = p.samples.map Sample.arrived := by
      rw [hp.arrived_eq]
    simp only [inTrace] at hrest ⊢
    by_cases h : keyOf p = key
    · simp [hkey, h, hrest, hsamples]
    · simp [hkey, h, hrest]

theorem wire_session (d : Description) (ps : List Packet) :
    (.description d :: ps.map .packet : List Frame).flatMap Frame.wire =
      (Utf8.encode d.text).filter (· != 0) ++
        0 :: (ps.map Packet.image).flatMap PacketImage.bytes := by
  have hpackets : (ps.map .packet : List Frame).flatMap Frame.wire =
      (ps.map Packet.image).flatMap PacketImage.bytes := by
    simp only [List.flatMap_map, Packet.bytes_image]
    rfl
  rw [List.flatMap_cons, hpackets, Frame.wire, wireText, List.append_assoc]
  rfl

/-- Of packets that fit their cores those in range are decoded, and the others are dropped for the
core alone. -/
theorem run_packets (maxCores : Nat) (d : Description) {ps : List Packet}
    (hps : ∀ p ∈ ps, ∃ core : UInt32, p.Fits core) {pieces : List (List UInt8)}
    (hpieces : pieces.flatten =
      (.description d :: ps.map .packet : List Frame).flatMap Frame.wire) :
    (FrameDecoder.ofSession maxCores).run ⟨pieces, none⟩ =
      (.description ⟨Utf8.decodeLenient ((Utf8.encode d.text).filter (· != 0))⟩ ::
          ((inRange maxCores ps).map Packet.arrived).map .packet, .clean,
        ⟨false, maxCores, { coreOutOfRange := ps.countP (maxCores ≤ ·.header.core.toNat) }, []⟩) := by
  have husable : (ps.map Packet.image).filter (·.Usable maxCores) =
      (inRange maxCores ps).map Packet.image := by
    rw [List.filter_map, inRange]
    congr 1
    refine List.filter_congr fun p hp => ?_
    obtain ⟨core, hfits⟩ := hps p hp
    exact decide_eq_decide.2 hfits.usable_image_iff
  have hfaults : FaultCounts.countAll {}
      ((ps.map Packet.image).filterMap (·.fields.fault? maxCores)) =
      { coreOutOfRange := ps.countP (maxCores ≤ ·.header.core.toNat) } := by
    have hcounters : ∀ p ∈ ps, p.image.fields.counterCount.toNat ≤ maxCounters := by
      intro p hp
      obtain ⟨core, hfits⟩ := hps p hp
      rw [hfits.fields_image, hfits.counters]
      decide
    rw [FaultCounts.countAll_images]
    simp only [List.countP_map, Nat.zero_add, FaultCounts.mk.injEq]
    refine ⟨?_, ?_, ?_⟩
    · refine List.countP_eq_zero.2 fun p hp => ?_
      simpa using hcounters p hp
    · refine List.countP_congr fun p hp => ?_
      obtain ⟨core, hfits⟩ := hps p hp
      have := hcounters p hp
      simp_all [hfits.fields_image]
    · refine List.countP_eq_zero.2 fun p hp => ?_
      obtain ⟨core, hfits⟩ := hps p hp
      simp [hfits.fields_image, hfits.quantity_ne_zero]
  have hwire := hpieces.trans (wire_session d ps)
  rw [← List.append_nil (List.flatMap _ _)] at hwire
  rw [FrameDecoder.run_session maxCores (by simp) _ rfl hwire, husable, hfaults, List.map_map,
    List.map_map]
  rfl

/-- Packets that fit cores in range are all decoded, and nothing else. -/
theorem run_fitting {maxCores : Nat} (hmax : maxCores ≤ 256) (d : Description) {ps : List Packet}
    (hps : ∀ p ∈ ps, ∃ core : UInt32, core.toNat < maxCores ∧ p.Fits core)
    {pieces : List (List UInt8)}
    (hpieces : pieces.flatten =
      (.description d :: ps.map .packet : List Frame).flatMap Frame.wire) :
    (FrameDecoder.ofSession maxCores).run ⟨pieces, none⟩ =
      (.description ⟨Utf8.decodeLenient ((Utf8.encode d.text).filter (· != 0))⟩ ::
          (ps.map Packet.arrived).map .packet, .clean, ⟨false, maxCores, {}, []⟩) := by
  have hrange : ∀ p ∈ ps, p.header.core.toNat < maxCores := by
    intro p hp
    obtain ⟨core, hcore, hfits⟩ := hps p hp
    rw [hfits.core, toNat_wireCore (by omega)]
    exact hcore
  have hall : inRange maxCores ps = ps :=
    List.filter_eq_self.2 fun p hp => decide_eq_true (hrange p hp)
  have hnone : ps.countP (maxCores ≤ ·.header.core.toNat) = 0 :=
    List.countP_eq_zero.2 fun p hp => by simpa using hrange p hp
  rw [run_packets maxCores d (fun p hp => (hps p hp).imp fun _ h => h.2) hpieces, hall, hnone]

section
variable {l : Type} [MetadataLoader l] {w : Type} [TraceWriter w] {j : w}

/-- **Samples are delivered.**  Whatever buffers of cores in range are encoded, with any identities,
and however the written session is cut: no packet is dropped, no byte is left over, and every trace
is given the samples that its process left on its core, each once and in their order, with the low
32 bits of the cycles and with all counters.  A trace is opened only if there are such samples. -/
theorem samples_delivered (hj : NeverFails j) {maxCores : Nat} (hmax : maxCores ≤ 256)
    {buffers : List (Buffer × UInt32)} (hcores : ∀ b ∈ buffers, b.1.core.toNat < maxCores)
    (builder : PacketBuilder) (cache : IdentityCache l) (d : Description)
    {pieces : List (List UInt8)}
    (hpieces : pieces.flatten =
      (.description d :: (encodeBuffers buffers builder cache).1.map .packet : List Frame).flatMap
        Frame.wire) :
    ∃ frames left s calls,
      (FrameDecoder.ofSession maxCores).run ⟨pieces, none⟩ = (frames, .clean, left) ∧
      left.input = [] ∧ left.dropped = {} ∧
      processAll frames (new j maxCores) =
        (.ok (), s, (encodeBuffers buffers builder cache).1.length) ∧
      s.stats.dropped = 0 ∧ s.writer = after j calls ∧
      ∀ key, samplesOf key calls = (captured key buffers).map Sample.arrived ∧
        ((∃ c e, .openTrace key c e ∈ calls) ↔
          ∃ b ∈ buffers, b.1.core.toNat = key.core.toNat ∧ ∃ s ∈ b.1.samples, s.pid = key.pid) := by
  have hfits : ∀ p ∈ (encodeBuffers buffers builder cache).1,
      ∃ core : UInt32, core.toNat < maxCores ∧ p.Fits core := by
    intro p hp
    obtain ⟨b, hb, hfit⟩ := encodeBuffers_fits buffers builder cache p hp
    exact ⟨b.1.core, hcores b hb, hfit⟩
  have hrun := run_fitting hmax d hfits hpieces
  generalize hps : (encodeBuffers buffers builder cache).1 = ps at hfits hrun ⊢
  have hrange : ∀ p ∈ ps.map Packet.arrived, p.header.core.toNat < maxCores := by
    intro p hp
    obtain ⟨q, hq, rfl⟩ := List.mem_map.1 hp
    obtain ⟨core, hcore, hfit⟩ := hfits q hq
    rw [hfit.arrived_eq, hfit.core, toNat_wireCore (by omega)]
    exact hcore
  have hne : ∀ p ∈ ps.map Packet.arrived, p.samples ≠ [] := by
    intro p hp
    obtain ⟨q, hq, rfl⟩ := List.mem_map.1 hp
    obtain ⟨core, -, hfit⟩ := hfits q hq
    rw [hfit.arrived_eq]
    simpa using hfit.ne_nil
  have hgiven : ∀ key, (inTrace key (ps.map Packet.arrived)).flatMap (·.samples) =
      (captured key buffers).map Sample.arrived := by
    intro key
    rw [inTrace_arrived fun p hp => (hfits p hp).imp fun _ h => h.2, ← hps,
      flatMap_inTrace_encodeBuffers fun b hb => by have := hcores b hb; omega]
  obtain ⟨s, hprocess, hs, hdropped⟩ := processAll_session hj
    ⟨Utf8.decodeLenient ((Utf8.encode d.text).filter (· != 0))⟩ hrange
  rw [List.length_map] at hprocess
  refine ⟨_, _, s, _, hrun, rfl, rfl, hprocess, hdropped, hs.writer, fun key => ⟨?_, ?_⟩⟩
  · rw [← hgiven key, ← samplesOf_filings key [] (ps.map Packet.arrived)]
    rfl
  · have hopen := openTrace_mem_filings key (ps.map Packet.arrived)
    rw [mem_map_keyOf_iff hne, hgiven, ne_eq, List.map_eq_nil_iff, ← ne_eq,
      captured_ne_nil_iff] at hopen
    simpa using hopen

end

/-- Two cores between which process 7 moves.  On core 1 process 8 comes between, and the cycles
outgrow 32 bits. -/
def movingProcess : List (Buffer × UInt32) :=
  let sample (cycles : UInt64) (pid : UInt32) : Sample :=
    ⟨cycles, pid, Vector.replicate maxCounters 9⟩
  [((((Buffer.new.reset 1).push (sample 4294967290 7)).push (sample 4294967300 8)).push
      (sample 4294967310 7), 3),
    (((Buffer.new.reset 0).push (sample 5 7)).push (sample 6 8), 4),
    ((Buffer.new.reset 1).push (sample 4294967320 7), 4)]

theorem samples_delivered_moving_process :
    let builder : PacketBuilder := {}
    let cache := IdentityCache.new ({} : ProcessTable) "" 0
    let bytes := (.description ⟨"d"⟩ ::
      (encodeBuffers movingProcess builder cache).1.map .packet : List Frame).flatMap Frame.wire
    NeverFails ({} : TraceJournal) ∧ 2 ≤ 256 ∧ (∀ b ∈ movingProcess, b.1.core.toNat < 2) ∧
      ∃ frames left s calls,
        (FrameDecoder.ofSession 2).run ⟨[bytes.take 40, bytes.drop 40], none⟩ =
            (frames, .clean, left) ∧
          processAll frames (new ({} : TraceJournal) 2) = (.ok (), s, 6) ∧
          s.writer = after {} calls ∧
          (samplesOf ⟨1, 7⟩ calls).map Sample.cycles = [4294967290, 14, 24] ∧
          (samplesOf ⟨1, 8⟩ calls).map Sample.cycles = [4] ∧
          (samplesOf ⟨0, 7⟩ calls).map Sample.cycles = [5] ∧
          (samplesOf ⟨0, 8⟩ calls).map Sample.cycles = [6] := by
  intro builder cache bytes
  have hj : NeverFails ({} : TraceJournal) := TraceJournal.neverFails rfl
  have hcores : ∀ b ∈ movingProcess, b.1.core.toNat < 2 := by decide
  have hpieces : [bytes.take 40, bytes.drop 40].flatten = bytes := by
    rw [List.flatten_cons, List.flatten_singleton, List.take_append_drop]
  obtain ⟨frames, left, s, calls, hrun, -, -, hprocess, -, hwriter, hcalls⟩ :=
    samples_delivered hj (show 2 ≤ 256 by decide) hcores builder cache ⟨"d"⟩ hpieces
  have hpackets : (encodeBuffers movingProcess builder cache).1.length = 6 := by decide +kernel
  rw [hpackets] at hprocess
  refine ⟨hj, by decide, hcores, frames, left, s, calls, hrun, hprocess, hwriter, ?_, ?_, ?_, ?_⟩
  · rw [(hcalls ⟨1, 7⟩).1]
    decide
  · rw [(hcalls ⟨1, 8⟩).1]
    decide
  · rw [(hcalls ⟨0, 7⟩).1]
    decide
  · rw [(hcalls ⟨0, 8⟩).1]
    decide

end CounterTrace
