import CounterTrace.Proofs.Trace.Filing
import CounterTrace.Trace.Receive

/-!
# Splitting with a writer that never fails

A splitter whose writer never fails makes exactly the calls that filing its packets asks for, and
its state tells which packets those were: the last process of each core, the open traces, and for
each trace the identity of its last packet, its location and the number of its samples.

    s.Filed j calls ps        `s` has filed `ps` by making `calls` to the writer `j`
    Filed j calls ps → Filed j (calls ++ filing ps p) (ps ++ [p])
                                               after `p` is processed       (processPacket_filed)
-/

namespace CounterTrace

open TraceWriter

variable {w : Type} [TraceWriter w]

namespace Splitter

/-! ## What has been filed -/

def sampleCount (ps : List Packet) : Nat := (ps.flatMap (·.samples)).length

def packetsOf (frames : List Frame) : List Packet := frames.filterMap Frame.packet?

def inRange (maxCores : Nat) (ps : List Packet) : List Packet :=
  ps.filter (·.header.core.toNat < maxCores)

/-- The calls for frames that come after packets: descriptions are passed on, packets of cores in
range are filed. -/
def callsFor (maxCores : Nat) (filed : List Packet) : List Frame → List WriterCall
  | [] => []
  | .description d :: frames => .describe d :: callsFor maxCores filed frames
  | .packet p :: frames =>
    if p.header.core.toNat < maxCores then
      filing filed p ++ callsFor maxCores (filed ++ [p]) frames
    else callsFor maxCores filed frames

/-- All calls for frames that come after packets, up to the end of the session. -/
def sessionCalls (maxCores : Nat) (filed : List Packet) (frames : List Frame)
    (keys : List StreamKey) (entries : List IndexEntry) : List WriterCall :=
  callsFor maxCores filed frames ++ keys.map .close ++ [.index entries]

end Splitter

open Splitter

/-- An entry tells what packets came to its trace, and where calls have put it. -/
structure IndexEntry.Tells (j : w) (calls : List WriterCall) (ps : List Packet)
    (e : IndexEntry) : Prop where
  identity : ∃ last, (inTrace e.key ps).getLast? = some last ∧
    e.cmdline = last.cmdline ∧ e.executable = last.executable
  location : GivenLocation j calls e.key e.location
  samples : e.samples = sampleCount (inTrace e.key ps)

namespace Splitter

/-- A splitter that filed packets by making calls to a writer. -/
structure Filed (j : w) (calls : List WriterCall) (ps : List Packet) (s : Splitter w) : Prop where
  writer : s.writer = after j calls
  current : ∀ core, s.current.get? core = (onCore core ps).getLast?.map (·.header.pid)
  nodup : s.streams.Nodup
  mem_streams : ∀ key, key ∈ s.streams ↔ key ∈ ps.map keyOf
  keys : s.index.keys = s.streams
  index : ∀ key ∈ s.streams, ∃ e, s.index.get? key = some e ∧ e.key = key ∧ e.Tells j calls ps
  packets : s.stats.packets = ps.length
  samples : s.stats.samples = sampleCount ps
  boundaries : s.stats.boundaries = calls.countP (·.isBoundary)

theorem filed_new (j : w) (maxCores : Nat) : Filed j [] [] (new j maxCores) where
  writer := rfl
  current _ := rfl
  nodup := List.nodup_nil
  mem_streams _ := by simp [new]
  keys := rfl
  index _ h := by simp [new] at h
  packets := rfl
  samples := rfl
  boundaries := rfl

theorem Filed.describe {j : w} {calls : List WriterCall} {ps : List Packet} {s : Splitter w}
    (hs : Filed j calls ps s) (d : Description) :
    Filed j (calls ++ [.describe d]) ps { s with writer := after j (calls ++ [.describe d]) } where
  writer := rfl
  current := hs.current
  nodup := hs.nodup
  mem_streams := hs.mem_streams
  keys := hs.keys
  index key hmem := by
    obtain ⟨e, he, hkey, htells⟩ := hs.index key hmem
    exact ⟨e, he, hkey, htells.identity, htells.location.append _, htells.samples⟩
  packets := hs.packets
  samples := hs.samples
  boundaries := by simp [hs.boundaries, WriterCall.isBoundary]

theorem Filed.drop {j : w} {calls : List WriterCall} {ps : List Packet} {s : Splitter w}
    (hs : Filed j calls ps s) :
    Filed j calls ps { s with stats := { s.stats with dropped := s.stats.dropped + 1 } } where
  writer := hs.writer
  current := hs.current
  nodup := hs.nodup
  mem_streams := hs.mem_streams
  keys := hs.keys
  index := hs.index
  packets := hs.packets
  samples := hs.samples
  boundaries := hs.boundaries

theorem sampleCount_append (ps qs : List Packet) :
    sampleCount (ps ++ qs) = sampleCount ps + sampleCount qs := by
  simp [sampleCount]

@[simp]
theorem sampleCount_singleton (p : Packet) : sampleCount [p] = p.samples.length := by
  simp [sampleCount]

theorem callsFor_packets (maxCores : Nat) (filed ps : List Packet) :
    callsFor maxCores filed (ps.map .packet) = filings filed (inRange maxCores ps) := by
  induction ps generalizing filed with
  | nil => rfl
  | cons p ps ih =>
    by_cases hp : p.header.core.toNat < maxCores
    · simp [callsFor, inRange, hp, filings, ih]
    · simp [callsFor, inRange, hp, ih]

theorem callsFor_description (maxCores : Nat) (filed : List Packet) (d : Description)
    (frames : List Frame) :
    callsFor maxCores filed (.description d :: frames) =
      .describe d :: callsFor maxCores filed frames := rfl

/-- As long as frames come, no index is written. -/
theorem index_not_mem_callsFor (maxCores : Nat) (filed : List Packet) (frames : List Frame)
    (rows : List IndexEntry) : .index rows ∉ callsFor maxCores filed frames := by
  induction frames generalizing filed with
  | nil => exact List.not_mem_nil
  | cons frame frames ih =>
    cases frame with
    | description x =>
      intro h
      rcases List.mem_cons.1 h with heq | h
      · cases heq
      · exact ih filed h
    | packet p =>
      intro h
      unfold callsFor at h
      split at h
      · rcases List.mem_append.1 h with h | h
        · obtain ⟨q, -, -, hkey⟩ := key_of_mem_filing h
          cases hkey
        · exact ih _ h
      · exact ih filed h

theorem packetsOf_description (d : Description) (frames : List Frame) :
    packetsOf (.description d :: frames) = packetsOf frames := rfl

theorem packetsOf_packets (ps : List Packet) : packetsOf (ps.map .packet) = ps := by
  rw [packetsOf, List.filterMap_map]
  exact List.filterMap_some

/-! ## The steps for one packet -/

section
variable {j : w} (hj : NeverFails j) {calls : List WriterCall} {ps : List Packet} {s : Splitter w}
include hj

/-- A core goes over to the process of a packet with the boundary that filing asks for. -/
theorem enter_filed (hs : Filed j calls ps s) (p : Packet) :
    s.enter (keyOf p) = (.ok (),
      { s with
        writer := after j (calls ++ leaving ps p)
        current := s.current.insert p.header.core p.header.pid
        stats := { s.stats with
          boundaries := (calls ++ leaving ps p).countP (·.isBoundary) } }) := by
  have hcurrent := hs.current p.header.core
  cases hl : (onCore p.header.core ps).getLast? with
  | none =>
    rw [hl] at hcurrent
    have hnone : leaving ps p = [] := by rw [leaving, hl]
    simp only [enter, keyOf, hcurrent, hnone, List.append_nil, ← hs.writer, ← hs.boundaries,
      Option.map_none]
  | some q =>
    rw [hl] at hcurrent
    obtain ⟨hq, hcore⟩ := core_of_getLast?_onCore hl
    by_cases hpid : q.header.pid = p.header.pid
    · have hnone : leaving ps p = [] := by simp only [leaving, hl, hpid, if_true]
      have hsame : s.current.insert p.header.core p.header.pid = s.current :=
        Table.insert_of_get? (by rw [hcurrent, ← hpid]; rfl)
      simp only [enter, keyOf, hcurrent, hpid, hnone, hsame, List.append_nil, ← hs.writer,
        ← hs.boundaries, Option.map_some, if_true]
    · have hkey : (⟨p.header.core, q.header.pid⟩ : StreamKey) = keyOf q := by rw [keyOf, hcore]
      have hleaving : leaving ps p = [.boundary (keyOf q)] := by
        simp only [leaving, hl, hpid, if_false]
      have hopen : keyOf q ∈ s.streams := (hs.mem_streams _).2 (List.mem_map_of_mem hq)
      have hwrite := (hj.after calls).writeBoundary (keyOf q)
      have hkeyOf : keyOf p = ⟨p.header.core, p.header.pid⟩ := rfl
      simp only [enter, hkeyOf, hcurrent, Option.map_some, hpid, if_false, hkey, leave, hopen,
        if_true, hs.writer, hwrite, hleaving, after_append, List.countP_append, hs.boundaries]
      rfl

/-- A packet of a core in range is filed, and the index tells of it. -/
theorem processPacket_eq (hs : Filed j calls ps s) {p : Packet}
    (hp : p.header.core.toNat < s.maxCores) :
    ∃ e : IndexEntry, e.key = keyOf p ∧ e.Tells j (calls ++ filing ps p) (ps ++ [p]) ∧
      s.processPacket p = (.ok (),
        { s with
          writer := after j (calls ++ filing ps p)
          current := s.current.insert p.header.core p.header.pid
          streams := if keyOf p ∈ s.streams then s.streams else s.streams ++ [keyOf p]
          index := s.index.insert (keyOf p) e
          stats := { s.stats with
            packets := s.stats.packets + 1
            samples := s.stats.samples + p.samples.length
            boundaries := (calls ++ filing ps p).countP (·.isBoundary) } }) := by
  have hwrite : writeSamples (after j (calls ++ leaving ps p ++ opening ps p)) (keyOf p) p.samples =
      (.ok (), after j (calls ++ filing ps p)) := by
    rw [(hj.after _).writeSamples, ← after_append]
    simp only [filing, List.append_assoc]
  have hboundaries : (calls ++ filing ps p).countP (·.isBoundary) =
      (calls ++ leaving ps p).countP (·.isBoundary) := by
    have hopening : (opening ps p).countP (·.isBoundary) = 0 := by
      rw [opening]
      split <;> rfl
    simp only [filing, List.countP_append, hopening]
    rfl
  by_cases hk : keyOf p ∈ s.streams
  · -- the trace is open: its entry goes on from what it told before
    have hopening : opening ps p = [] := by rw [opening, if_pos ((hs.mem_streams _).1 hk)]
    obtain ⟨e, he, hkey, htells⟩ := hs.index _ hk
    refine ⟨{ e with cmdline := p.cmdline, executable := p.executable
                     samples := e.samples + p.samples.length }, hkey, ⟨⟨p, ?_⟩, ?_, ?_⟩, ?_⟩
    · simp [inTrace_concat, hkey]
    · exact htells.location.append _
    · simp [inTrace_concat, hkey, sampleCount_append, htells.samples]
    · rw [hopening, List.append_nil] at hwrite
      simp only [processPacket, hp, if_true, enter_filed hj hs, andThen, ensureOpen, hk, store,
        hwrite, accounted, he, hboundaries]
  · -- the trace is opened first, and its entry starts with this packet
    have hnew : keyOf p ∉ ps.map keyOf := fun h => hk ((hs.mem_streams _).2 h)
    have hopening : opening ps p = [.openTrace (keyOf p) p.cmdline p.executable] := by
      rw [opening, if_neg hnew]
    obtain ⟨location, hopen⟩ :=
      (hj.after (calls ++ leaving ps p)).openTrace (keyOf p) p.cmdline p.executable
    have hempty : inTrace (keyOf p) ps = [] := inTrace_eq_nil_iff.2 hnew
    refine ⟨⟨keyOf p, p.cmdline, p.executable, location, p.samples.length⟩, rfl,
      ⟨⟨p, ?_⟩, ?_, ?_⟩, ?_⟩
    · simp [inTrace_concat]
    · refine ⟨calls ++ leaving ps p, [.samples (keyOf p) p.samples], p.cmdline, p.executable,
        ?_, ?_⟩
      · simp [filing, hopening]
      · rw [hopen]
    · simp [inTrace_concat, hempty]
    · rw [hopening] at hwrite
      simp only [processPacket, hp, if_true, enter_filed hj hs, andThen, ensureOpen, hk, if_false,
        hopen, opened, store, ← after_append, hwrite, accounted, Table.get?_insert,
        Table.insert_insert, hboundaries, Nat.zero_add]

/-- A splitter that has filed packets files one more. -/
theorem processPacket_filed (hs : Filed j calls ps s) {p : Packet}
    (hp : p.header.core.toNat < s.maxCores) :
    ∃ s', s.processPacket p = (.ok (), s') ∧
      Filed j (calls ++ filing ps p) (ps ++ [p]) s' ∧
      s'.maxCores = s.maxCores ∧ s'.stats.dropped = s.stats.dropped := by
  obtain ⟨e, hkey, htells, hprocess⟩ := processPacket_eq hj hs hp
  refine ⟨_, hprocess, ⟨rfl, ?_, ?_, ?_, ?_, ?_, ?_, ?_, rfl⟩, rfl, rfl⟩
  · intro core
    rw [Table.get?_insert, onCore_concat]
    by_cases h : core = p.header.core
    · simp [h]
    · simp [h, Ne.symm h, hs.current core]
  · show (if _ then _ else _ : List StreamKey).Nodup
    split
    · exact hs.nodup
    · next h => exact List.nodup_append.2 ⟨hs.nodup, by simp, by grind⟩
  · intro key
    have := hs.mem_streams
    simp only [List.map_append, List.map_cons, List.map_nil]
    split <;> grind
  · show (s.index.insert (keyOf p) e).keys = _
    rw [Table.keys_insert, hs.keys]
  · intro key hmem
    rw [Table.get?_insert]
    by_cases hk : key = keyOf p
    · exact ⟨e, by rw [if_pos hk], hkey.trans hk.symm, htells⟩
    · have hold : key ∈ s.streams := by
        revert hmem
        show key ∈ (if _ then _ else _ : List StreamKey) → _
        split <;> grind
      obtain ⟨e', he', hkey', htells'⟩ := hs.index key hold
      refine ⟨e', by rw [if_neg hk, he'], hkey', ?_⟩
      have hsame : inTrace e'.key (ps ++ [p]) = inTrace e'.key ps := by
        rw [inTrace_concat, if_neg (by rw [hkey']; exact Ne.symm hk), List.append_nil]
      refine ⟨?_, htells'.location.append _, ?_⟩
      · rw [hsame]
        exact htells'.identity
      · rw [hsame]
        exact htells'.samples
  · show s.stats.packets + 1 = _
    rw [hs.packets, List.length_append]
    rfl
  · show s.stats.samples + p.samples.length = _
    rw [hs.samples, sampleCount_append, sampleCount_singleton]

/-! ## Runs -/

/-- Frames are handled to the last; the calls are those for the frames, and packets of cores out of
range leave nothing but their number. -/
theorem processAll_filed (hs : Filed j calls ps s) (frames : List Frame) :
    ∃ s', processAll frames s = (.ok (), s', (packetsOf frames).length) ∧
      Filed j (calls ++ callsFor s.maxCores ps frames)
        (ps ++ inRange s.maxCores (packetsOf frames)) s' ∧
      s'.maxCores = s.maxCores ∧
      s'.stats.dropped =
        s.stats.dropped + (packetsOf frames).countP (s.maxCores ≤ ·.header.core.toNat) := by
  induction frames generalizing calls ps s with
  | nil => exact ⟨s, rfl, by simpa [callsFor, packetsOf, inRange] using hs, rfl, rfl⟩
  | cons f frames ih =>
    cases f with
    | description d =>
      have hdescribe := (hj.after calls).describe d
      rw [← after_append] at hdescribe
      obtain ⟨s', hrun, hs', hmax, hdropped⟩ := ih (hs.describe d)
      have hpackets : packetsOf (.description d :: frames) = packetsOf frames := rfl
      refine ⟨s', ?_, ?_, hmax, hdropped⟩
      · simp only [processAll, process, hs.writer, hdescribe, hrun, hpackets]
        simp [Frame.packet?]
      · simpa [callsFor, hpackets] using hs'
    | packet p =>
      have hpackets : packetsOf (.packet p :: frames) = p :: packetsOf frames := rfl
      by_cases hp : p.header.core.toNat < s.maxCores
      · obtain ⟨s₁, hprocess, hs₁, hmax₁, hdropped₁⟩ := processPacket_filed hj hs hp
        obtain ⟨s', hrun, hs', hmax, hdropped⟩ := ih hs₁
        rw [hmax₁] at hs' hdropped
        refine ⟨s', ?_, ?_, hmax.trans hmax₁, ?_⟩
        · simp only [processAll, process, hprocess, hrun, hpackets]
          simp [Frame.packet?, Nat.add_comm]
        · simpa [callsFor, hpackets, inRange, hp] using hs'
        · rw [hdropped, hdropped₁, hpackets, List.countP_cons_of_neg (by simpa using hp)]
      · have hout : s.processPacket p =
            (.ok (), { s with stats := { s.stats with dropped := s.stats.dropped + 1 } }) := by
          rw [processPacket, if_neg hp]
        obtain ⟨s', hrun, hs', hmax, hdropped⟩ := ih hs.drop
        have hcount : s'.stats.dropped = s.stats.dropped + 1 +
            (packetsOf frames).countP (s.maxCores ≤ ·.header.core.toNat) := hdropped
        refine ⟨s', ?_, ?_, hmax, ?_⟩
        · simp only [processAll, process, hout, hrun, hpackets]
          simp [Frame.packet?, Nat.add_comm]
        · simpa [callsFor, hpackets, inRange, hp] using hs'
        · rw [hcount, hpackets, List.countP_cons_of_pos (by simpa using hp)]
          omega

/-- A description and then packets of cores in range: all of them are filed. -/
theorem processAll_session {maxCores : Nat} (d : Description) {qs : List Packet}
    (hqs : ∀ p ∈ qs, p.header.core.toNat < maxCores) :
    ∃ s, processAll (.description d :: qs.map .packet) (new j maxCores) = (.ok (), s, qs.length) ∧
      Filed j (.describe d :: filings [] qs) qs s ∧ s.stats.dropped = 0 := by
  have hall : inRange maxCores qs = qs :=
    List.filter_eq_self.2 fun p hp => decide_eq_true (hqs p hp)
  have hnone : qs.countP (maxCores ≤ ·.header.core.toNat) = 0 :=
    List.countP_eq_zero.2 fun p hp => by simpa using hqs p hp
  obtain ⟨s, hrun, hs, -, hdropped⟩ :=
    processAll_filed hj (filed_new j maxCores) (.description d :: qs.map .packet)
  rw [show (new j maxCores).maxCores = maxCores from rfl] at hs hdropped
  rw [packetsOf_description, packetsOf_packets] at hrun hs hdropped
  rw [callsFor_description, callsFor_packets, hall] at hs
  rw [hnone] at hdropped
  exact ⟨s, hrun, hs, hdropped⟩

/-- Traces are closed in the order given. -/
theorem closeAll_eq (keys : List StreamKey) :
    closeAll keys j = (.ok (), after j (keys.map .close)) := by
  induction keys generalizing j with
  | nil => rfl
  | cons key keys ih =>
    have hclose := hj.close key
    simp only [closeAll, hclose, ih (hj.after _), ← after_append]
    rfl

/-- At the end every open trace is closed, and the index is written. -/
theorem finish_eq (hs : Filed j calls ps s) :
    s.finish = (.ok (), after j (calls ++ s.streams.map .close ++ [.index s.entries])) := by
  simp only [finish, hs.writer, closeAll_eq (hj.after calls), ← after_append]
  rw [(hj.after _).writeIndex, ← after_append]

end

end Splitter

end CounterTrace
