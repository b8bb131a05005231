import CounterTrace.Proofs.Text.Parts
import CounterTrace.Proofs.Trace.Calls
import CounterTrace.Trace.Directory

/-!
# Files of a trace directory

A trace directory is a writer that never fails.  Each trace has a file of its own, apart from those of
the other traces, of the description and of the index.

    f.fileName key = f.fileName key' ↔ key = key'                                  (fileName_inj)

The file of a trace is its header and then all that was written to the trace since, in order.

    after d (before ++ .openTrace key c e :: calls) has in the file of `key`
        header c e, then the bytes of `eventsOf key calls`                       (traceFile_after)
-/

namespace CounterTrace

open TraceWriter

/-! ## Calls -/

def eventsOf (key : StreamKey) (calls : List WriterCall) : List TraceEvent :=
  calls.flatMap fun
    | .samples k ss => if k = key then ss.map .sample else []
    | .boundary k => if k = key then [.boundary] else []
    | _ => []

theorem eventsOf_append (key : StreamKey) (calls more : List WriterCall) :
    eventsOf key (calls ++ more) = eventsOf key calls ++ eventsOf key more :=
  List.flatMap_append

def WriterCall.opens (key : StreamKey) : WriterCall → Bool
  | openTrace k _ _ => k = key
  | _ => false

/-! ## Entries -/

/-- What can be read of an entry: the numbers of a sample, its cycles first, or a boundary. -/
inductive TraceRow where
  | sample (numbers : List Nat)
  | boundary
  deriving DecidableEq, Repr

def Sample.numbers (s : Sample) : List Nat :=
  s.cycles.toNat :: s.counters.toList.map UInt32.toNat

/-- What a format keeps of an entry. -/
def TraceFormat.row : TraceFormat → TraceEvent → TraceRow
  | text, .sample s => .sample s.numbers
  | binary, .sample s => .sample (s.cycles.toNat % UInt32.size :: s.counters.toList.map UInt32.toNat)
  | _, .boundary => .boundary

/-! ## Names -/

namespace TraceFormat

theorem toList_fileName (f : TraceFormat) (key : StreamKey) :
    (f.fileName key).toList =
      (toString key.pid.toNat).toList ++
        '-' :: ("core".toList ++ ((toString key.core.toNat).toList ++ f.suffix.toList)) := by
  simp [fileName, String.toList_append]

theorem fileName_inj {f : TraceFormat} {key key' : StreamKey} :
    f.fileName key = f.fileName key' ↔ key = key' := by
  refine ⟨fun h => ?_, fun h => by rw [h]⟩
  have hdash : ∀ n : Nat, '-' ∉ (toString n).toList := Text.not_mem_toString (by decide)
  have hlist := congrArg String.toList h
  rw [toList_fileName, toList_fileName] at hlist
  have hcut := congrArg (Text.splitOn '-') hlist
  rw [Text.splitOn_append (hdash _), Text.splitOn_append (hdash _)] at hcut
  have hpid := (List.cons.inj hcut).1
  rw [hpid] at hlist
  have hrest := (List.cons.inj (List.append_cancel_left hlist)).2
  have hcore := List.append_cancel_right (List.append_cancel_left hrest)
  obtain ⟨core, pid⟩ := key
  obtain ⟨core', pid'⟩ := key'
  rw [StreamKey.mk.injEq, ← UInt8.toNat_inj, ← UInt32.toNat_inj]
  exact ⟨Text.Numeral.toString_inj.1 hcore, Text.Numeral.toString_inj.1 hpid⟩

/-- The other files have no dash in their names. -/
theorem fileName_ne (f : TraceFormat) (key : StreamKey) :
    f.fileName key ≠ TraceDirectory.setupName ∧ f.fileName key ≠ TraceDirectory.indexName := by
  have hdash : '-' ∈ (f.fileName key).toList := by
    rw [toList_fileName]
    exact List.mem_append_right _ List.mem_cons_self
  constructor
  · intro h
    rw [h] at hdash
    exact absurd hdash (by decide)
  · intro h
    rw [h] at hdash
    exact absurd hdash (by decide)

end TraceFormat

/-! ## Files -/

namespace TraceDirectory

def traceFile (d : TraceDirectory) (key : StreamKey) : Option (List UInt8) :=
  d.files.get? (d.format.fileName key)

theorem ask_ok (d : TraceDirectory) (call : WriterCall) :
    (∃ answer, (ask d call).1 = .ok answer) ∧ (ask d call).2.format = d.format := by
  cases call with
  | describe description => exact ⟨⟨none, rfl⟩, rfl⟩
  | openTrace key c e => exact ⟨⟨some _, rfl⟩, rfl⟩
  | samples key ss => exact ⟨⟨none, rfl⟩, rfl⟩
  | boundary key => exact ⟨⟨none, rfl⟩, rfl⟩
  | close key => exact ⟨⟨none, rfl⟩, rfl⟩
  | index entries => exact ⟨⟨none, rfl⟩, rfl⟩

@[simp]
theorem format_after (d : TraceDirectory) (calls : List WriterCall) :
    (after d calls).format = d.format := by
  induction calls generalizing d with
  | nil => rfl
  | cons call calls ih => exact (ih (ask d call).2).trans (ask_ok d call).2

theorem neverFails (d : TraceDirectory) : NeverFails d := fun calls call =>
  (ask_ok (after d calls) call).1

section
variable {d : TraceDirectory} {key : StreamKey} {bytes : List UInt8}

theorem traceFile_open (d : TraceDirectory) (key : StreamKey) (c e : String) :
    (ask d (.openTrace key c e)).2.traceFile key = some (d.format.header c e) := by
  have hfiles : (ask d (.openTrace key c e)).2.traceFile key =
      (d.files.insert (d.format.fileName key) (d.format.header c e)).get?
        (d.format.fileName key) := rfl
  rw [hfiles, Table.get?_insert, if_pos rfl]

/-- Writing another file changes nothing. -/
theorem traceFile_write_of_ne {name : String} (hname : d.format.fileName key ≠ name)
    (content : List UInt8) : (d.write name content).traceFile key = d.traceFile key := by
  rw [traceFile, write, Table.get?_insert, if_neg hname]
  rfl

theorem traceFile_record (h : d.traceFile key = some bytes) (k : StreamKey)
    (events : List TraceEvent) :
    (d.record k events).traceFile key =
      some (bytes ++ if k = key then events.flatMap d.format.event else []) := by
  have hfiles : (d.record k events).traceFile key =
      (d.files.insert (d.format.fileName k) (((d.traceFile k).getD []) ++
        events.flatMap d.format.event)).get? (d.format.fileName key) := rfl
  rw [hfiles, Table.get?_insert]
  by_cases hk : k = key
  · subst hk
    rw [if_pos rfl, if_pos rfl, h, Option.getD_some]
  · have hname : d.format.fileName key ≠ d.format.fileName k :=
      fun heq => hk (TraceFormat.fileName_inj.1 heq).symm
    rw [if_neg hname, if_neg hk, List.append_nil]
    exact h

/-- A call adds to an open trace what it writes to it. -/
theorem traceFile_ask (h : d.traceFile key = some bytes) {call : WriterCall}
    (hcall : call.opens key = false) :
    (ask d call).2.traceFile key =
      some (bytes ++ (eventsOf key [call]).flatMap d.format.event) := by
  obtain ⟨hsetup, hindex⟩ := d.format.fileName_ne key
  have hnothing : some (bytes ++ [].flatMap d.format.event) = some bytes := by
    rw [List.flatMap_nil, List.append_nil]
  cases call with
  | describe description => exact (traceFile_write_of_ne hsetup _).trans (h.trans hnothing.symm)
  | openTrace k c e =>
    have hk : k ≠ key := by simpa [WriterCall.opens] using hcall
    have hname : d.format.fileName key ≠ d.format.fileName k :=
      fun heq => hk (TraceFormat.fileName_inj.1 heq).symm
    exact (traceFile_write_of_ne hname _).trans (h.trans hnothing.symm)
  | samples k ss =>
    refine (traceFile_record h k _).trans ?_
    by_cases hk : k = key
    · simp [eventsOf, hk]
    · simp [eventsOf, hk]
  | boundary k =>
    refine (traceFile_record h k _).trans ?_
    by_cases hk : k = key
    · simp [eventsOf, hk]
    · simp [eventsOf, hk]
  | close k => exact h.trans hnothing.symm
  | index entries => exact (traceFile_write_of_ne hindex _).trans (h.trans hnothing.symm)

theorem traceFile_calls (h : d.traceFile key = some bytes) {calls : List WriterCall}
    (hcalls : ∀ call ∈ calls, call.opens key = false) :
    (after d calls).traceFile key =
      some (bytes ++ (eventsOf key calls).flatMap d.format.event) := by
  induction calls generalizing d bytes with
  | nil => exact h.trans (congrArg some (List.append_nil bytes).symm)
  | cons call calls ih =>
    have hstep := traceFile_ask h (hcalls call List.mem_cons_self)
    have hrest := ih hstep fun other hother => hcalls other (List.mem_cons_of_mem _ hother)
    have hevents : eventsOf key (call :: calls) = eventsOf key [call] ++ eventsOf key calls :=
      eventsOf_append key [call] calls
    rw [(ask_ok d call).2, List.append_assoc, ← List.flatMap_append, ← hevents] at hrest
    exact hrest

/-- A trace that is opened, and not once more, is in its file from the header on. -/
theorem traceFile_after (d : TraceDirectory) (before : List WriterCall) (key : StreamKey)
    (c e : String) (calls : List WriterCall) (hcalls : ∀ call ∈ calls, call.opens key = false) :
    (after d (before ++ .openTrace key c e :: calls)).traceFile key =
      some (d.format.header c e ++ (eventsOf key calls).flatMap d.format.event) := by
  have hopen := traceFile_open (after d before) key c e
  have hfile := traceFile_calls hopen hcalls
  rw [(ask_ok _ _).2, format_after] at hfile
  rw [after_append]
  exact hfile

end

end TraceDirectory

/-- A directory without files. -/
def outDirectory (format : TraceFormat) : TraceDirectory := { path := "/out", format := format }

def someSample : Sample := ⟨10, 7, ⟨#[1, 2, 3, 4, 5, 6], rfl⟩⟩

end CounterTrace
