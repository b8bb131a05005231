import CounterTrace.Bytes.Supply
import CounterTrace.Proofs.Packet.Reading
import CounterTrace.Proofs.Text.Utf8
import CounterTrace.Proofs.Trace.Files

/-!
# Reading binary traces

A binary trace is a mark, two texts and records of 28 bytes, one for each entry.

    binaryParts (header c e ++ events) = c, e, events.map record                (binaryParts_file)

A record of zeros is read as a boundary and any other one as a sample.  The record of a boundary is
one of zeros, but so is that of a sample in which everything is zero, and these two are not told
apart.

    sampleRecord s = zeros ↔ s.IsBlank                                   (sampleRecord_eq_zeros_iff)
    readTraceRecord (record of e) = row e, or a boundary if e is blank   (readTraceRecord_event)
-/

namespace CounterTrace

open Bytes TraceWriter

/-! ## The reader -/

/-- The two texts and the records of a binary trace. -/
def binaryParts (bytes : List UInt8) : Option (String × String × List (List UInt8)) := do
  let (mark, bytes) ← takeExactly binaryMark.length bytes
  let (c, bytes) ← takeText bytes
  let (e, bytes) ← takeText bytes
  let c ← Utf8.decode? c
  let e ← Utf8.decode? e
  if mark = binaryMark then some (c, e, chop 28 bytes) else none

/-- A record of zeros is a boundary, and any other one of seven words a sample. -/
def readTraceRecord (record : List UInt8) : Option TraceRow :=
  if record = List.replicate 28 0 then some .boundary
  else
    match takeWords takeLE32 7 record with
    | some (words, []) => some (.sample (words.map UInt32.toNat))
    | _ => none

/-! ## Records -/

namespace Sample

def words (s : Sample) : List UInt32 := UInt32.ofNat s.cycles.toNat :: s.counters.toList

/-- Of a blank sample a binary trace shows nothing but zeros. -/
def IsBlank (s : Sample) : Prop :=
  s.cycles.toNat % UInt32.size = 0 ∧ s.counters = Vector.replicate maxCounters 0

instance : DecidablePred IsBlank := fun _ => inferInstanceAs (Decidable (_ ∧ _))

theorem length_words (s : Sample) : s.words.length = 7 := by
  rw [words, List.length_cons, Vector.length_toList]
  rfl

theorem takeWords_sampleRecord (s : Sample) :
    takeWords takeLE32 7 (sampleRecord s) = some (s.words, []) := by
  have h := takeWords_append takeLE32_append s.words []
  rw [length_words, List.append_nil] at h
  exact h

theorem words_eq_zeros_iff (s : Sample) : s.words = List.replicate 7 0 ↔ s.IsBlank := by
  have hcycles : UInt32.ofNat s.cycles.toNat = 0 ↔ s.cycles.toNat % UInt32.size = 0 := by
    rw [← UInt32.toNat_inj, UInt32.toNat_ofNat']
    rfl
  have hcounters : s.counters.toList = List.replicate maxCounters 0 ↔
      s.counters = Vector.replicate maxCounters 0 := by
    rw [← Vector.toList_replicate, Vector.toList_inj]
  have hseven : List.replicate 7 (0 : UInt32) = 0 :: List.replicate maxCounters 0 := rfl
  rw [words, hseven, List.cons.injEq, hcycles, hcounters]
  rfl

theorem map_toNat_words (s : Sample) :
    TraceRow.sample (s.words.map UInt32.toNat) = TraceFormat.binary.row (.sample s) := by
  rw [words, List.map_cons, UInt32.toNat_ofNat']
  rfl

end Sample

theorem sampleRecord_eq_zeros_iff (s : Sample) :
    sampleRecord s = List.replicate 28 0 ↔ s.IsBlank := by
  have hzeros : (List.replicate 7 0).flatMap le32 = List.replicate 28 0 := by decide
  rw [← s.words_eq_zeros_iff]
  constructor
  · intro h
    have hwords := s.takeWords_sampleRecord
    have htaken := takeWords_append takeLE32_append (List.replicate 7 0) []
    rw [List.append_nil, hzeros, ← h, List.length_replicate, hwords] at htaken
    exact (Prod.mk.inj (Option.some.inj htaken)).1
  · intro h
    have hrecord : sampleRecord s = s.words.flatMap le32 := rfl
    rw [hrecord, h, hzeros]

/-- What an entry of a binary trace is read as. -/
def binaryReading : TraceEvent → TraceRow
  | .sample s => if s.IsBlank then .boundary else TraceFormat.binary.row (.sample s)
  | .boundary => .boundary

theorem readTraceRecord_event (event : TraceEvent) :
    readTraceRecord (TraceFormat.binary.event event) = some (binaryReading event) := by
  cases event with
  | sample s =>
    have hrecord : TraceFormat.binary.event (.sample s) = sampleRecord s := rfl
    rw [hrecord, readTraceRecord, binaryReading]
    by_cases hs : s.IsBlank
    · rw [if_pos ((sampleRecord_eq_zeros_iff s).2 hs), if_pos hs]
    · rw [if_neg fun h => hs ((sampleRecord_eq_zeros_iff s).1 h), if_neg hs,
        s.takeWords_sampleRecord, ← s.map_toNat_words]
  | boundary => exact if_pos rfl

theorem length_binaryEvent (event : TraceEvent) :
    (TraceFormat.binary.event event).length = 28 := by
  cases event with
  | sample s =>
    have hrecord : TraceFormat.binary.event (.sample s) = s.words.flatMap le32 := rfl
    rw [hrecord, List.length_flatMap, List.map_congr_left fun w _ => length_le32 w, List.map_const',
      s.length_words]
    rfl
  | boundary => rfl

/-! ## Files -/

theorem binaryParts_file {c e : String} (hc : '\x00' ∉ c.toList) (he : '\x00' ∉ e.toList)
    (events : List TraceEvent) :
    binaryParts (TraceFormat.binary.header c e ++ events.flatMap TraceFormat.binary.event) =
      some (c, e, events.map TraceFormat.binary.event) := by
  have hfile : TraceFormat.binary.header c e ++ events.flatMap TraceFormat.binary.event =
      binaryMark ++ (Utf8.encode c ++ 0 :: (Utf8.encode e ++ 0 ::
        (events.map TraceFormat.binary.event).flatten)) := by
    simp [TraceFormat.header, List.flatMap_def]
  have hrecords : ∀ record ∈ events.map TraceFormat.binary.event, record.length = 28 := by
    intro record hrecord
    obtain ⟨event, -, rfl⟩ := List.mem_map.1 hrecord
    exact length_binaryEvent event
  have hdecode : ∀ s, Utf8.decode? (Utf8.encode s) = some s :=
    fun s => Utf8.decode?_eq_some_iff.2 rfl
  simp only [hfile, binaryParts, takeExactly_append rfl, takeText_append (Utf8.zero_not_mem_encode hc),
    takeText_append (Utf8.zero_not_mem_encode he), Option.bind_eq_bind, Option.bind_some, hdecode,
    if_true, chop_flatten (by decide) hrecords]

/-! ## Reading a file back -/

/-- The file holds these texts and a record for each of these entries. -/
def ReadsAsBinary (bytes : List UInt8) (c e : String) (events : List TraceEvent) : Prop :=
  ∃ records, binaryParts bytes = some (c, e, records) ∧
    records.map readTraceRecord = events.map fun event => some (TraceFormat.binary.row event)

theorem map_readTraceRecord_event (events : List TraceEvent) :
    (events.map TraceFormat.binary.event).map readTraceRecord =
      events.map fun event => some (binaryReading event) := by
  rw [List.map_map]
  exact List.map_congr_left fun event _ => readTraceRecord_event event

theorem binaryReading_eq_row_iff (event : TraceEvent) :
    binaryReading event = TraceFormat.binary.row event ↔ ∀ s, event = .sample s → ¬s.IsBlank := by
  cases event with
  | sample s =>
    by_cases hs : s.IsBlank
    · simp [binaryReading, hs, TraceFormat.row]
    · simp [binaryReading, hs]
  | boundary => simp [binaryReading, TraceFormat.row]

theorem readsAsBinary_iff {c e : String} (hc : '\x00' ∉ c.toList) (he : '\x00' ∉ e.toList)
    (events : List TraceEvent) :
    ReadsAsBinary (TraceFormat.binary.header c e ++ events.flatMap TraceFormat.binary.event) c e
      events ↔ ∀ s, .sample s ∈ events → ¬s.IsBlank := by
  have hsame : (events.map fun event => some (binaryReading event)) =
      (events.map fun event => some (TraceFormat.binary.row event)) ↔
        ∀ s, .sample s ∈ events → ¬s.IsBlank := by
    rw [List.map_inj_left]
    constructor
    · intro h s hs
      exact (binaryReading_eq_row_iff _).1 (Option.some.inj (h _ hs)) s rfl
    · intro h event hevent
      exact congrArg some ((binaryReading_eq_row_iff event).2 fun s hs => h s (hs ▸ hevent))
  rw [ReadsAsBinary, binaryParts_file hc he, ← hsame, ← map_readTraceRecord_event]
  constructor
  · rintro ⟨records, hparts, hrows⟩
    obtain ⟨-, -, rfl⟩ : c = c ∧ e = e ∧ events.map TraceFormat.binary.event = records := by
      simpa using hparts
    exact hrows
  · intro h
    exact ⟨_, rfl, h⟩

/-- **What is read back of a binary trace.**  A trace is opened for a process, whatever was written
before, and is given samples and boundaries.  If its command line and its executable have no NUL,
both are read back, and behind them one record for each sample or boundary, in order.  A record reads
as what was written (of the cycles the low 32 bits), except that a sample in which all of this is
zero reads as a boundary; so all of it is read back if and only if there is no such sample. -/
theorem binary_trace_reads_back {d : TraceDirectory} (hd : d.format = .binary)
    (before : List WriterCall) (key : StreamKey) {c e : String} (hc : '\x00' ∉ c.toList)
    (he : '\x00' ∉ e.toList) (calls : List WriterCall)
    (hcalls : ∀ call ∈ calls, call.opens key = false) :
    ∃ bytes records,
      (after d (before ++ .openTrace key c e :: calls)).traceFile key = some bytes ∧
      binaryParts bytes = some (c, e, records) ∧
      (records.map readTraceRecord =
        (eventsOf key calls).map fun event => some (binaryReading event)) ∧
      (ReadsAsBinary bytes c e (eventsOf key calls) ↔
        ∀ s, .sample s ∈ eventsOf key calls → ¬s.IsBlank) := by
  have hfile := d.traceFile_after before key c e calls hcalls
  rw [hd] at hfile
  exact ⟨_, _, hfile, binaryParts_file hc he _, map_readTraceRecord_event _,
    readsAsBinary_iff hc he _⟩

theorem binary_trace_reads_back_app :
    ∃ bytes, (after (outDirectory .binary) [.openTrace ⟨0, 7⟩ "app" "/bin/app",
        .samples ⟨0, 7⟩ [someSample], .boundary ⟨0, 7⟩]).traceFile ⟨0, 7⟩ = some bytes ∧
      ReadsAsBinary bytes "app" "/bin/app" [.sample someSample, .boundary] := by
  obtain ⟨bytes, records, hfile, -, -, hreads⟩ :=
    binary_trace_reads_back (d := outDirectory .binary) rfl [] ⟨0, 7⟩ (c := "app") (e := "/bin/app")
      (by decide) (by decide) [.samples ⟨0, 7⟩ [someSample], .boundary ⟨0, 7⟩] (by decide)
  refine ⟨bytes, hfile, hreads.2 fun s hs => ?_⟩
  obtain rfl : s = someSample := by simpa [eventsOf] using hs
  decide

/-- A sample of process 7 in which nothing was counted. -/
def blankSample : Sample := ⟨0, 7, Vector.replicate 6 0⟩

/-- A packet with this sample, without counters. -/
def blankPacket : Packet where
  header := { counterCount := 0, quantity := 1, pid := 7 }
  samples := [blankSample]
  cmdline := "app"
  executable := "/bin/app"

/-- The packet comes off the wire as it is, and its trace reads as a boundary instead of a sample. -/
theorem blank_sample_reads_as_boundary :
    readPacket 1 blankPacket.wire = .packet blankPacket 37 ∧
      ∃ s bytes, (Splitter.new (outDirectory .binary) 1).processPacket blankPacket = (.ok (), s) ∧
        s.writer.traceFile ⟨0, 7⟩ = some bytes ∧
        binaryParts bytes = some ("app", "/bin/app", [List.replicate 28 0]) ∧
        readTraceRecord (List.replicate 28 0) = some .boundary ∧
        ¬ReadsAsBinary bytes "app" "/bin/app" [.sample blankSample] := by
  have hfile := (outDirectory .binary).traceFile_after [] ⟨0, 7⟩ "app" "/bin/app"
    [.samples ⟨0, 7⟩ [blankSample]] (by decide)
  refine ⟨by decide +kernel, _, _, rfl, hfile, ?_, by decide, fun h => ?_⟩
  · exact (binaryParts_file (by decide) (by decide) _).trans (by decide)
  · exact (readsAsBinary_iff (by decide) (by decide) _).1 h blankSample (by decide) (by decide)

end CounterTrace
