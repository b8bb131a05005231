import Mathlib.Algebra.GroupWithZero.Nat
import CounterTrace.Proofs.Trace.Calls

/-!
# Splitting with a writer that may fail

A call of the writer that fails ends the handling of its frame, and the next frames are handled
nevertheless.  What the splitter keeps then tells which calls went well, and nothing else: the index
and the open traces are the openings that succeeded, and the counts are those of samples and
boundaries that were written.

    processEach frames s     handles every frame, whatever became of those before it
    Recorded w               a writer that writes down what it is asked, and whether it succeeded
    Tallied done s           what `s` keeps agrees with the calls that succeeded
    Tallied s.writer.done s → Tallied s'.writer.done s'     when `s'` is `s` after a frame
                                                                              (Tallied.process)
-/

namespace CounterTrace

open TraceWriter

/-! ## Writers that keep a record -/

/-- A writer with the calls that it was asked for, and whether each succeeded. -/
structure Recorded (w : Type) where
  writer : w
  log : List (WriterCall × Bool) := []

namespace Recorded

variable {w : Type}

/-- Takes note of the answer to a call. -/
def note {α : Type} (r : Recorded w) (call : WriterCall) (answer : Except Failure α × w) :
    Except Failure α × Recorded w :=
  (answer.1, ⟨answer.2, r.log ++ [(call, answer.1.isOk)]⟩)

/-- The calls that succeeded. -/
def done (r : Recorded w) : List WriterCall := (r.log.filter (·.2)).map (·.1)

instance [TraceWriter w] : TraceWriter (Recorded w) where
  describe r d := r.note (.describe d) (TraceWriter.describe r.writer d)
  openTrace r key c e := r.note (.openTrace key c e) (TraceWriter.openTrace r.writer key c e)
  writeSamples r key ss := r.note (.samples key ss) (TraceWriter.writeSamples r.writer key ss)
  writeBoundary r key := r.note (.boundary key) (TraceWriter.writeBoundary r.writer key)
  close r key := r.note (.close key) (TraceWriter.close r.writer key)
  writeIndex r es := r.note (.index es) (TraceWriter.writeIndex r.writer es)

section
variable {α : Type} {r r' : Recorded w} {call : WriterCall} {answer : Except Failure α × w}

theorem done_of_ok {a : α} (h : r.note call answer = (.ok a, r')) : r'.done = r.done ++ [call] := by
  simp only [note, Prod.mk.injEq] at h
  obtain ⟨ha, rfl⟩ := h
  simp [done, ha, Except.isOk, Except.toBool]

theorem done_of_error {f : Failure} (h : r.note call answer = (.error f, r')) :
    r'.done = r.done := by
  simp only [note, Prod.mk.injEq] at h
  obtain ⟨ha, rfl⟩ := h
  simp [done, ha, Except.isOk, Except.toBool]

end

end Recorded

def openedBy (calls : List WriterCall) : List StreamKey :=
  calls.filterMap fun
    | .openTrace key _ _ => some key
    | _ => none

theorem openedBy_append (calls more : List WriterCall) :
    openedBy (calls ++ more) = openedBy calls ++ openedBy more := List.filterMap_append

namespace Splitter

/-! ## Handling every frame -/

section
variable {w : Type} [TraceWriter w]

/-- Handles all frames, going on after failures.  Gives the outcome of each. -/
def processEach : List Frame → Splitter w → List (Except Failure Unit) × Splitter w
  | [], s => ([], s)
  | f :: fs, s =>
    let (r, s) := s.process f
    let (rs, s) := processEach fs s
    (r :: rs, s)

end

/-- Packets that ended in a failure. -/
def failedPackets (frames : List Frame) (outcomes : List (Except Failure Unit)) : Nat :=
  (frames.zip outcomes).countP fun (f, r) => f.packet?.isSome && !r.isOk

/-! ## What is kept -/

/-- The sum of what the index counts. -/
def indexedSamples {w : Type} (s : Splitter w) : Nat := (s.index.entries.map (·.2.samples)).sum

/-- What a splitter keeps agrees with the calls that succeeded. -/
structure Tallied {w : Type} (done : List WriterCall) (s : Splitter w) : Prop where
  keys : s.index.keys = s.streams
  opened : s.streams = openedBy done
  nodup : s.streams.Nodup
  entry : ∀ key e, s.index.get? key = some e →
    e.key = key ∧ e.samples = (samplesOf key done).length
  elsewhere : ∀ key, key ∉ s.streams → samplesOf key done = []
  samples : s.stats.samples = s.indexedSamples
  boundaries : s.stats.boundaries = done.countP (·.isBoundary)

/-- Writing to a table changes the sum of its values by the difference at the key. -/
theorem sum_map_store {κ α : Type} [DecidableEq κ] (count : α → Nat) (k : κ) (v : α)
    (es : List (κ × α)) :
    ((Table.store k v es).map (count ·.2)).sum + (Table.lookup k es).elim 0 count =
      (es.map (count ·.2)).sum + count v := by
  induction es with
  | nil => simp [Table.store, Table.lookup]
  | cons e es ih =>
    obtain ⟨k', v'⟩ := e
    by_cases h : k' = k
    · simp only [Table.store, Table.lookup, h, if_true, List.map_cons, List.sum_cons, Option.elim_some]
      omega
    · simp only [Table.store, Table.lookup, h, if_false, List.map_cons, List.sum_cons]
      omega

/-- A call without samples for a trace leaves what the trace was given. -/
theorem samplesOf_concat_of_nil {key : StreamKey} {done : List WriterCall} {call : WriterCall}
    (h : samplesOf key [call] = []) : samplesOf key (done ++ [call]) = samplesOf key done := by
  rw [samplesOf_append, h, List.append_nil]

theorem tallied_new {w : Type} (j : w) (maxCores : Nat) : Tallied [] (new j maxCores) where
  keys := rfl
  opened := rfl
  nodup := List.nodup_nil
  entry _ _ h := by cases h
  elsewhere _ _ := rfl
  samples := rfl
  boundaries := rfl

namespace Tallied

variable {w : Type} {done : List WriterCall} {s : Splitter w}

/-- The writer, the processes of the cores and the packets are of no concern. -/
theorem of_same (h : Tallied done s) {s' : Splitter w} (hstreams : s'.streams = s.streams)
    (hindex : s'.index = s.index) (hsamples : s'.stats.samples = s.stats.samples)
    (hboundaries : s'.stats.boundaries = s.stats.boundaries) : Tallied done s' where
  keys := by rw [hindex, hstreams, h.keys]
  opened := by rw [hstreams, h.opened]
  nodup := by rw [hstreams]; exact h.nodup
  entry := by rw [hindex]; exact h.entry
  elsewhere := by rw [hstreams]; exact h.elsewhere
  samples := by rw [indexedSamples, hindex, hsamples]; exact h.samples
  boundaries := by rw [hboundaries, h.boundaries]

/-- A call that neither opens a trace nor writes samples nor marks a boundary. -/
theorem describe (h : Tallied done s) (d : Description) : Tallied (done ++ [.describe d]) s where
  keys := h.keys
  opened := by rw [openedBy_append, h.opened]; exact (List.append_nil _).symm
  nodup := h.nodup
  entry key e he := by
    rw [samplesOf_concat_of_nil rfl]
    exact h.entry key e he
  elsewhere key hkey := by
    rw [samplesOf_concat_of_nil rfl]
    exact h.elsewhere key hkey
  samples := h.samples
  boundaries := by rw [List.countP_append, h.boundaries]; rfl

theorem boundary (h : Tallied done s) (key : StreamKey) (writer : w) :
    Tallied (done ++ [.boundary key]) { s with
      writer := writer, stats := { s.stats with boundaries := s.stats.boundaries + 1 } } where
  keys := h.keys
  opened := by rw [openedBy_append, ← h.opened]; exact (List.append_nil _).symm
  nodup := h.nodup
  entry key e he := by
    rw [samplesOf_concat_of_nil rfl]
    exact h.entry key e he
  elsewhere key hkey := by
    rw [samplesOf_concat_of_nil rfl]
    exact h.elsewhere key hkey
  samples := h.samples
  boundaries := by
    show s.stats.boundaries + 1 = _
    rw [List.countP_append, h.boundaries]
    rfl

/-- A trace that is opened was not known before, so nothing can have been written to it. -/
theorem opens (h : Tallied done s) {key : StreamKey} (hkey : key ∉ s.streams) (c e : String)
    (location : String) : Tallied (done ++ [.openTrace key c e]) (s.opened key location) where
  keys := by
    show (s.index.insert key _).keys = s.streams ++ [key]
    rw [Table.keys_insert, h.keys, if_neg hkey]
  opened := by
    show s.streams ++ [key] = _
    rw [openedBy_append, ← h.opened]
    rfl
  nodup := by
    show (s.streams ++ [key]).Nodup
    rw [List.nodup_append]
    refine ⟨h.nodup, by simp, ?_⟩
    intro a ha b hb heq
    rw [List.mem_singleton.1 hb] at heq
    exact hkey (heq ▸ ha)
  entry k row hrow := by
    rw [samplesOf_concat_of_nil rfl]
    simp only [Splitter.opened, Table.get?_insert] at hrow
    by_cases hk : k = key
    · rw [if_pos hk, Option.some.injEq] at hrow
      subst hrow
      subst hk
      exact ⟨rfl, by rw [h.elsewhere k hkey, List.length_nil]⟩
    · rw [if_neg hk] at hrow
      exact h.entry k row hrow
  elsewhere k hk := by
    rw [samplesOf_concat_of_nil rfl]
    exact h.elsewhere k fun hmem => hk (List.mem_append_left _ hmem)
  samples := by
    show s.stats.samples = ((Table.store key _ s.index.entries).map (IndexEntry.samples ·.2)).sum
    have hnone : Table.lookup key s.index.entries = none := by
      have : ¬ (s.index.get? key).isSome := by rwa [← Table.mem_keys_iff, h.keys]
      simpa [Table.get?] using this
    have hsum := sum_map_store IndexEntry.samples key ⟨key, "", "", location, 0⟩ s.index.entries
    rw [hnone, Option.elim_none, Nat.add_zero] at hsum
    rw [hsum]
    exact h.samples
  boundaries := by
    show s.stats.boundaries = _
    rw [List.countP_append, h.boundaries]
    rfl

/-- Samples that are written to an open trace count in its entry. -/
theorem stores (h : Tallied done s) {p : Packet} (hopen : keyOf p ∈ s.streams) :
    Tallied (done ++ [.samples (keyOf p) p.samples]) (s.accounted p) := by
  obtain ⟨row, hrow⟩ : ∃ row, s.index.get? (keyOf p) = some row := by
    rw [← Option.isSome_iff_exists, ← Table.mem_keys_iff, h.keys]
    exact hopen
  have haccounted : (s.accounted p).index = s.index.insert (keyOf p)
      { row with cmdline := p.cmdline, executable := p.executable
                 samples := row.samples + p.samples.length } := by
    simp only [accounted, hrow]
  refine ⟨?_, ?_, h.nodup, ?_, ?_, ?_, ?_⟩
  · rw [haccounted, Table.keys_insert, h.keys, if_pos hopen]
    rfl
  · rw [openedBy_append, ← h.opened]
    exact (List.append_nil _).symm
  · intro key e he
    rw [haccounted, Table.get?_insert] at he
    by_cases hk : key = keyOf p
    · rw [if_pos hk, Option.some.injEq] at he
      subst he
      subst hk
      obtain ⟨hrowKey, hsamples⟩ := h.entry _ row hrow
      refine ⟨hrowKey, ?_⟩
      rw [samplesOf_append, List.length_append, ← hsamples]
      simp [samplesOf]
    · rw [if_neg hk] at he
      rw [samplesOf_concat_of_nil (by simp [samplesOf, Ne.symm hk])]
      exact h.entry key e he
  · intro key hkey
    have hne : keyOf p ≠ key := fun heq => hkey (heq ▸ hopen)
    rw [samplesOf_concat_of_nil (by simp [samplesOf, hne])]
    exact h.elsewhere key hkey
  · show s.stats.samples + p.samples.length = ((s.accounted p).index.entries.map _).sum
    have hsum := sum_map_store IndexEntry.samples (keyOf p)
      { row with cmdline := p.cmdline, executable := p.executable
                 samples := row.samples + p.samples.length } s.index.entries
    rw [show Table.lookup (keyOf p) s.index.entries = some row from hrow] at hsum
    simp only [Option.elim_some] at hsum
    have hbefore := h.samples
    rw [indexedSamples] at hbefore
    rw [haccounted]
    show _ = ((Table.store _ _ s.index.entries).map (IndexEntry.samples ·.2)).sum
    omega
  · show s.stats.boundaries = _
    rw [List.countP_append, h.boundaries]
    rfl

end Tallied

/-! ## Steps -/

section
variable {w : Type} [TraceWriter w] {s s' : Splitter (Recorded w)} {r : Except Failure Unit}

/-- The packets that a splitter has accepted or dropped. -/
def settled {w : Type} (s : Splitter w) : Nat := s.stats.packets + s.stats.dropped

theorem leave_tallied (h : Tallied s.writer.done s) {key : StreamKey} (hs : s.leave key = (r, s')) :
    Tallied s'.writer.done s' ∧ s'.settled = s.settled := by
  unfold leave at hs
  split at hs
  · split at hs
    · next hwrite =>
      cases hs
      rw [Recorded.done_of_ok hwrite]
      exact ⟨h.boundary key _, rfl⟩
    · next hwrite =>
      cases hs
      rw [Recorded.done_of_error hwrite]
      exact ⟨h.of_same rfl rfl rfl rfl, rfl⟩
  · cases hs
    exact ⟨h, rfl⟩

theorem enter_tallied (h : Tallied s.writer.done s) {key : StreamKey} (hs : s.enter key = (r, s')) :
    Tallied s'.writer.done s' ∧ s'.settled = s.settled := by
  unfold enter at hs
  split at hs
  · cases hs
    exact ⟨h.of_same rfl rfl rfl rfl, rfl⟩
  · split at hs
    · cases hs
      exact ⟨h, rfl⟩
    · refine leave_tallied (s := { s with current := s.current.insert key.core key.pid }) ?_ hs
      exact h.of_same rfl rfl rfl rfl

/-- Unless it fails, the trace of the packet is then open. -/
theorem ensureOpen_tallied (h : Tallied s.writer.done s) {p : Packet}
    (hs : s.ensureOpen p = (r, s')) :
    Tallied s'.writer.done s' ∧ s'.settled = s.settled ∧ (r = .ok () → keyOf p ∈ s'.streams) := by
  unfold ensureOpen at hs
  split at hs
  · next hopen =>
    cases hs
    exact ⟨h, rfl, fun _ => hopen⟩
  · next hnew =>
    split at hs
    · next location writer hwrite =>
      cases hs
      refine ⟨?_, rfl, fun _ => List.mem_append_right _ List.mem_cons_self⟩
      have hopens := h.opens hnew p.cmdline p.executable location
      rw [← Recorded.done_of_ok hwrite] at hopens
      exact hopens.of_same rfl rfl rfl rfl
    · next hwrite =>
      cases hs
      refine ⟨?_, rfl, nofun⟩
      rw [Recorded.done_of_error hwrite]
      exact h.of_same rfl rfl rfl rfl

/-- A packet whose samples are written is accepted. -/
theorem store_tallied (h : Tallied s.writer.done s) {p : Packet} (hopen : keyOf p ∈ s.streams)
    (hs : s.store p = (r, s')) :
    Tallied s'.writer.done s' ∧ s'.settled = s.settled + if r.isOk then 1 else 0 := by
  unfold store at hs
  split at hs
  · next hwrite =>
    cases hs
    refine ⟨?_, ?_⟩
    · have hstores := h.stores hopen
      rw [← Recorded.done_of_ok hwrite] at hstores
      exact hstores.of_same rfl rfl rfl rfl
    · show s.stats.packets + 1 + s.stats.dropped = s.stats.packets + s.stats.dropped + 1
      omega
  · next hwrite =>
    cases hs
    rw [Recorded.done_of_error hwrite]
    exact ⟨h.of_same rfl rfl rfl rfl, rfl⟩

/-- A packet is accepted, dropped, or ends in a failure. -/
theorem processPacket_tallied (h : Tallied s.writer.done s) {p : Packet}
    (hs : s.processPacket p = (r, s')) :
    Tallied s'.writer.done s' ∧ s'.settled = s.settled + if r.isOk then 1 else 0 := by
  unfold processPacket at hs
  split at hs
  · rcases henter : s.enter (keyOf p) with ⟨r₁, s₁⟩
    obtain ⟨h₁, hsettled₁⟩ := enter_tallied h henter
    rw [henter] at hs
    cases r₁ with
    | error f =>
      cases hs
      exact ⟨h₁, hsettled₁⟩
    | ok =>
      rcases hopen : s₁.ensureOpen p with ⟨r₂, s₂⟩
      obtain ⟨h₂, hsettled₂, hkey⟩ := ensureOpen_tallied h₁ hopen
      simp only [andThen, hopen] at hs
      cases r₂ with
      | error f =>
        cases hs
        exact ⟨h₂, hsettled₂.trans hsettled₁⟩
      | ok =>
        obtain ⟨h₃, hsettled₃⟩ := store_tallied h₂ (hkey rfl) hs
        exact ⟨h₃, by rw [hsettled₃, hsettled₂, hsettled₁]⟩
  · cases hs
    exact ⟨h.of_same rfl rfl rfl rfl, rfl⟩

theorem process_tallied (h : Tallied s.writer.done s) {f : Frame} (hs : s.process f = (r, s')) :
    Tallied s'.writer.done s' ∧
      s'.settled + (if f.packet?.isSome && !r.isOk then 1 else 0) =
        s.settled + if f.packet?.isSome then 1 else 0 := by
  cases f with
  | description d =>
    rcases hdescribe : TraceWriter.describe s.writer d with ⟨a, writer⟩
    simp only [process, hdescribe] at hs
    cases hs
    refine ⟨?_, rfl⟩
    cases r with
    | ok =>
      rw [Recorded.done_of_ok hdescribe]
      exact (h.describe d).of_same rfl rfl rfl rfl
    | error =>
      rw [Recorded.done_of_error hdescribe]
      exact h.of_same rfl rfl rfl rfl
  | packet p =>
    obtain ⟨h', hsettled⟩ := processPacket_tallied h hs
    refine ⟨h', ?_⟩
    rw [hsettled]
    cases r <;> rfl

/-! ## Runs -/

theorem processEach_tallied (h : Tallied s.writer.done s) (frames : List Frame) :
    Tallied (processEach frames s).2.writer.done (processEach frames s).2 ∧
      (processEach frames s).2.settled + failedPackets frames (processEach frames s).1 =
        s.settled + frames.countP (·.packet?.isSome) := by
  induction frames generalizing s with
  | nil => exact ⟨h, rfl⟩
  | cons f frames ih =>
    rcases hprocess : s.process f with ⟨r, s₁⟩
    obtain ⟨h₁, hsettled₁⟩ := process_tallied h hprocess
    obtain ⟨h', hsettled⟩ := ih h₁
    simp only [processEach, hprocess]
    refine ⟨h', ?_⟩
    simp only [failedPackets, List.zip_cons_cons, List.countP_cons] at hsettled ⊢
    omega

end

/-! ## Keeping a record changes nothing -/

section
variable {w : Type}

/-- The splitter that keeps no record of its calls. -/
def unrecorded (s : Splitter (Recorded w)) : Splitter w where
  writer := s.writer.writer
  maxCores := s.maxCores
  current := s.current
  streams := s.streams
  index := s.index
  stats := s.stats

variable [TraceWriter w]

theorem leave_unrecorded (s : Splitter (Recorded w)) (key : StreamKey) :
    s.unrecorded.leave key = ((s.leave key).1, (s.leave key).2.unrecorded) := by
  rcases hwrite : writeBoundary s.writer.writer key with ⟨r, writer⟩
  by_cases hk : key ∈ s.streams
  · cases r <;>
      simp only [leave, unrecorded, hk, if_true, hwrite, TraceWriter.writeBoundary, Recorded.note]
  · simp only [leave, unrecorded, hk, if_false]

theorem enter_unrecorded (s : Splitter (Recorded w)) (key : StreamKey) :
    s.unrecorded.enter key = ((s.enter key).1, (s.enter key).2.unrecorded) := by
  have hcurrent : s.unrecorded.current = s.current := rfl
  simp only [enter, hcurrent]
  cases s.current.get? key.core with
  | none => rfl
  | some pid =>
    by_cases hpid : pid = key.pid
    · simp only [hpid, if_true]
    · simp only [hpid, if_false]
      exact leave_unrecorded { s with current := s.current.insert key.core key.pid } _

theorem ensureOpen_unrecorded (s : Splitter (Recorded w)) (p : Packet) :
    s.unrecorded.ensureOpen p = ((s.ensureOpen p).1, (s.ensureOpen p).2.unrecorded) := by
  rcases hopen : openTrace s.writer.writer (keyOf p) p.cmdline p.executable with ⟨r, writer⟩
  by_cases hk : keyOf p ∈ s.streams
  · simp only [ensureOpen, unrecorded, hk, if_true]
  · cases r <;>
      simp only [ensureOpen, unrecorded, opened, hk, if_false, hopen, TraceWriter.openTrace,
        Recorded.note]

theorem store_unrecorded (s : Splitter (Recorded w)) (p : Packet) :
    s.unrecorded.store p = ((s.store p).1, (s.store p).2.unrecorded) := by
  rcases hwrite : writeSamples s.writer.writer (keyOf p) p.samples with ⟨r, writer⟩
  cases r <;>
    simp only [store, unrecorded, accounted, hwrite, TraceWriter.writeSamples, Recorded.note]

theorem processPacket_unrecorded (s : Splitter (Recorded w)) (p : Packet) :
    s.unrecorded.processPacket p = ((s.processPacket p).1, (s.processPacket p).2.unrecorded) := by
  have hmax : s.unrecorded.maxCores = s.maxCores := rfl
  by_cases hp : p.header.core.toNat < s.maxCores
  · rw [processPacket, hmax, if_pos hp, processPacket, if_pos hp, enter_unrecorded]
    rcases s.enter (keyOf p) with ⟨r₁, s₁⟩
    cases r₁ with
    | error f => rfl
    | ok =>
      simp only [andThen, ensureOpen_unrecorded]
      rcases s₁.ensureOpen p with ⟨r₂, s₂⟩
      cases r₂ with
      | error f => rfl
      | ok => exact store_unrecorded s₂ p
  · rw [processPacket, hmax, if_neg hp, processPacket, if_neg hp]
    rfl

theorem process_unrecorded (s : Splitter (Recorded w)) (f : Frame) :
    s.unrecorded.process f = ((s.process f).1, (s.process f).2.unrecorded) := by
  cases f with
  | description d => rfl
  | packet p => exact processPacket_unrecorded s p

theorem processEach_unrecorded (frames : List Frame) (s : Splitter (Recorded w)) :
    processEach frames s.unrecorded =
      ((processEach frames s).1, (processEach frames s).2.unrecorded) := by
  induction frames generalizing s with
  | nil => rfl
  | cons f frames ih => simp only [processEach, process_unrecorded, ih]

/-- **Accounts hold through failures.**  Whatever frames are handled one after the other, and
whichever calls of the writer fail: the index and the open traces are those whose opening succeeded,
each once; the entries count the samples that were written to their traces, and the statistics are
the sum of these, the boundaries that were marked, and a count of the packets in which every one is
accepted, dropped or failed. -/
theorem processEach_accounts (j : w) (maxCores : Nat) (frames : List Frame) :
    ∃ (outcomes : List (Except Failure Unit)) (s : Splitter (Recorded w)),
      processEach frames (new ⟨j, []⟩ maxCores) = (outcomes, s) ∧
      processEach frames (new j maxCores) = (outcomes, s.unrecorded) ∧
      s.index.keys = openedBy s.writer.done ∧ s.index.keys.Nodup ∧ s.index.keys = s.streams ∧
      (∀ key e, s.index.get? key = some e →
        e.key = key ∧ e.samples = (samplesOf key s.writer.done).length) ∧
      s.stats.samples = (s.index.entries.map (·.2.samples)).sum ∧
      s.stats.boundaries = s.writer.done.countP (·.isBoundary) ∧
      s.stats.packets + s.stats.dropped + failedPackets frames outcomes =
        frames.countP (·.packet?.isSome) := by
  let recorded : Splitter (Recorded w) := new ⟨j, []⟩ maxCores
  have hnew : Tallied recorded.writer.done recorded := tallied_new _ maxCores
  obtain ⟨h, hsettled⟩ := processEach_tallied hnew frames
  refine ⟨_, _, rfl, processEach_unrecorded frames recorded, h.keys.trans h.opened, ?_, h.keys,
    h.entry, h.samples, h.boundaries, ?_⟩
  · rw [h.keys]
    exact h.nodup
  · rw [show recorded.settled = 0 from rfl, Nat.zero_add] at hsettled
    exact hsettled

end

end Splitter

end CounterTrace
