import CounterTrace.Proofs.Text.Utf8
import CounterTrace.Proofs.Trace.Files

/-!
# Reading text traces

A text trace is read line by line.  Each entry has a line of its own, and the line shows which entry
it is and all of its numbers.

    readRow (eventLine e) = row e                                            (readRow_eventLine)

In front of these lines stands the header, as many lines as the command line and the executable have
between them.

    textLines (header c e ++ events) = lines of "c, e" ++ events.map eventLine   (textLines_file)
-/

namespace CounterTrace

open TraceWriter

/-! ## The reader -/

/-- The lines of a text trace, each of which is ended by a line feed. -/
def textLines (bytes : List UInt8) : Option (List (List Char)) := do
  let text ← Utf8.decode? bytes
  let parts := Text.splitOn '\n' text.toList
  if parts.getLast? = some [] then some parts.dropLast else none

def readField (field : List Char) : Option Nat :=
  (Text.Numeral.read 10 UInt64.size field).toOption

/-- A line of seven empty fields, or of seven fields with numbers. -/
def readRow (line : List Char) : Option TraceRow :=
  let fields := Text.splitOn ',' line
  if fields = List.replicate 7 [] then some .boundary
  else if fields.length = 7 then (fields.mapM readField).map .sample
  else none

/-! ## Lines -/

/-- The line of an entry, without its end. -/
def eventLine : TraceEvent → List Char
  | .sample s => [','].intercalate (s.numbers.map fun n => (toString n).toList)
  | .boundary => List.replicate 6 ','

theorem textEvent_eq (event : TraceEvent) :
    TraceFormat.text.event event = Utf8.encode (String.ofList (eventLine event ++ ['\n'])) := by
  cases event with
  | sample s =>
    have hrow : sampleRow s = ",".intercalate (s.numbers.map toString) ++ "\n" := by
      rw [sampleRow, Sample.numbers, List.map_cons, List.map_map]
      rfl
    rw [TraceFormat.event, hrow]
    congr 1
    apply String.toList_inj.1
    simp only [String.toList_append, String.toList_intercalate, List.map_map, String.toList_ofList]
    rfl
  | boundary => rfl

theorem length_numbers (s : Sample) : s.numbers.length = 7 := by
  rw [Sample.numbers, List.length_cons, List.length_map, Vector.length_toList]
  rfl

theorem lt_of_mem_numbers {s : Sample} {n : Nat} (h : n ∈ s.numbers) : n < UInt64.size := by
  rcases List.mem_cons.1 h with rfl | h
  · exact s.cycles.toNat_lt
  · obtain ⟨v, -, rfl⟩ := List.mem_map.1 h
    exact Nat.lt_of_lt_of_le v.toNat_lt (by decide)

theorem splitOn_eventLine_sample (s : Sample) :
    Text.splitOn ',' (eventLine (.sample s)) = s.numbers.map fun n => (toString n).toList := by
  refine Text.splitOn_intercalate (by simp [Sample.numbers]) fun field hfield => ?_
  obtain ⟨n, -, rfl⟩ := List.mem_map.1 hfield
  exact Text.not_mem_toString (by decide) n

theorem mapM_readField {ns : List Nat} (h : ∀ n ∈ ns, n < UInt64.size) :
    (ns.map fun n => (toString n).toList).mapM readField = some ns := by
  induction ns with
  | nil => rfl
  | cons n ns ih =>
    have hn := Text.Numeral.read_toString (h n List.mem_cons_self)
    have hns := ih fun m hm => h m (List.mem_cons_of_mem _ hm)
    rw [List.map_cons, List.mapM_cons, hns, readField, hn]
    rfl

/-- A line shows which entry it is and all of its numbers. -/
theorem readRow_eventLine (event : TraceEvent) :
    readRow (eventLine event) = some (TraceFormat.text.row event) := by
  cases event with
  | sample s =>
    have hfields : (s.numbers.map fun n => (toString n).toList) ≠ List.replicate 7 [] := by
      intro h
      have hread := mapM_readField fun _ => lt_of_mem_numbers (s := s)
      rw [h] at hread
      cases hread
    have hlength : (s.numbers.map fun n => (toString n).toList).length = 7 := by
      rw [List.length_map, length_numbers]
    simp only [readRow, splitOn_eventLine_sample, if_neg hfields, if_pos hlength,
      mapM_readField fun _ => lt_of_mem_numbers, Option.map_some]
    rfl
  | boundary => decide

theorem newline_not_mem_eventLine (event : TraceEvent) : '\n' ∉ eventLine event := by
  cases event with
  | sample s =>
    refine Text.not_mem_intercalate (by decide) fun field hfield => ?_
    obtain ⟨n, -, rfl⟩ := List.mem_map.1 hfield
    exact Text.not_mem_toString (by decide) n
  | boundary => decide

/-! ## Files -/

/-- The file of a trace with this header is a text: the header, and a line for each entry. -/
theorem textFile_eq (c e : String) (events : List TraceEvent) :
    TraceFormat.text.header c e ++ events.flatMap TraceFormat.text.event =
      Utf8.encode (String.ofList ((c ++ ", " ++ e).toList ++
        '\n' :: (events.map eventLine).flatMap (· ++ ['\n']))) := by
  have hheader : TraceFormat.text.header c e =
      Utf8.encode (String.ofList ((c ++ ", " ++ e).toList ++ ['\n'])) := by
    rw [String.ofList_append, String.ofList_toList]
    rfl
  have hevents : events.flatMap TraceFormat.text.event =
      Utf8.encode (String.ofList ((events.map eventLine).flatMap (· ++ ['\n']))) := by
    induction events with
    | nil => exact Utf8.encode_empty.symm
    | cons event events ih =>
      rw [List.flatMap_cons, textEvent_eq, ih, ← Utf8.encode_append, ← String.ofList_append]
      rfl
  rw [hheader, hevents, ← Utf8.encode_append, ← String.ofList_append, List.append_assoc]
  rfl

theorem textLines_file (c e : String) (events : List TraceEvent) :
    textLines (TraceFormat.text.header c e ++ events.flatMap TraceFormat.text.event) =
      some (Text.splitOn '\n' (c ++ ", " ++ e).toList ++ events.map eventLine) := by
  have hlines : ∀ line ∈ events.map eventLine, '\n' ∉ line := by
    intro line hline
    obtain ⟨event, -, rfl⟩ := List.mem_map.1 hline
    exact newline_not_mem_eventLine event
  have hended := Text.splitOn_ended hlines []
  rw [List.append_nil] at hended
  have hdecode := Utf8.decode?_eq_some_iff.2 (textFile_eq c e events).symm
  have hparts := Text.splitOn_append_cons '\n' (c ++ ", " ++ e).toList
    ((events.map eventLine).flatMap (· ++ ['\n']))
  rw [hended, ← List.append_assoc] at hparts
  simp only [textLines, hdecode, Option.bind_eq_bind, Option.bind_some, String.toList_ofList,
    hparts]
  simp [Text.splitOn]

/-! ## Reading a file back -/

/-- The file is one line with the header and one line for each of these entries. -/
def ReadsAsText (bytes : List UInt8) (header : String) (events : List TraceEvent) : Prop :=
  ∃ lines, textLines bytes = some (header.toList :: lines) ∧
    lines.map readRow = events.map fun event => some (TraceFormat.text.row event)

theorem map_readRow_eventLine (events : List TraceEvent) :
    (events.map eventLine).map readRow =
      events.map fun event => some (TraceFormat.text.row event) := by
  rw [List.map_map]
  exact List.map_congr_left fun event _ => readRow_eventLine event

/-- There is one line too many for each line feed in the header. -/
theorem readsAsText_iff (c e : String) (events : List TraceEvent) :
    ReadsAsText (TraceFormat.text.header c e ++ events.flatMap TraceFormat.text.event)
        (c ++ ", " ++ e) events ↔ '\n' ∉ c.toList ∧ '\n' ∉ e.toList := by
  have hheader : '\n' ∉ (c ++ ", " ++ e).toList ↔ '\n' ∉ c.toList ∧ '\n' ∉ e.toList := by
    simp
  rw [← hheader, ReadsAsText, textLines_file]
  constructor
  · rintro ⟨lines, hlines, hrows⟩
    have htotal := congrArg List.length (Option.some.inj hlines)
    have hsame := congrArg List.length hrows
    rw [List.length_append, List.length_map, List.length_cons] at htotal
    rw [List.length_map, List.length_map] at hsame
    exact Text.length_splitOn_eq_one_iff.1 (by omega)
  · intro h
    exact ⟨events.map eventLine, by rw [Text.splitOn_of_not_mem h]; rfl,
      map_readRow_eventLine events⟩

/-- **What is read back of a text trace.**  A trace is opened for a process, whatever was written
before, and is given samples and boundaries.  Its file ends with one line for each of them, in order,
and each line reads as what was written.  In front of these stands the header, cut at its line
feeds: the first line is the header, and all others are entries, if and only if neither the command
line nor the executable has a line feed. -/
theorem text_trace_reads_back {d : TraceDirectory} (hd : d.format = .text)
    (before : List WriterCall) (key : StreamKey) (c e : String) (calls : List WriterCall)
    (hcalls : ∀ call ∈ calls, call.opens key = false) :
    ∃ bytes lines, (after d (before ++ .openTrace key c e :: calls)).traceFile key = some bytes ∧
      textLines bytes = some (Text.splitOn '\n' (c ++ ", " ++ e).toList ++ lines) ∧
      (lines.map readRow =
        (eventsOf key calls).map fun event => some (TraceFormat.text.row event)) ∧
      (ReadsAsText bytes (c ++ ", " ++ e) (eventsOf key calls) ↔
        '\n' ∉ c.toList ∧ '\n' ∉ e.toList) := by
  have hfile := d.traceFile_after before key c e calls hcalls
  rw [hd] at hfile
  exact ⟨_, _, hfile, textLines_file c e _, map_readRow_eventLine _, readsAsText_iff c e _⟩

theorem text_trace_reads_back_app :
    ∃ bytes, (after (outDirectory .text) [.openTrace ⟨0, 7⟩ "app" "/bin/app",
        .samples ⟨0, 7⟩ [someSample], .boundary ⟨0, 7⟩]).traceFile ⟨0, 7⟩ = some bytes ∧
      ReadsAsText bytes "app, /bin/app" [.sample someSample, .boundary] := by
  obtain ⟨bytes, lines, hfile, -, -, hreads⟩ :=
    text_trace_reads_back (d := outDirectory .text) rfl [] ⟨0, 7⟩ "app" "/bin/app"
      [.samples ⟨0, 7⟩ [someSample], .boundary ⟨0, 7⟩] (by decide)
  exact ⟨bytes, hfile, hreads.2 (by decide)⟩

/-- A command line of two lines.  The first line of the file is not the header, and the second is no
entry. -/
theorem header_of_two_lines :
    ∃ bytes, (after (outDirectory .text) [.openTrace ⟨0, 7⟩ "sh -c date\nls" "/bin/sh",
        .samples ⟨0, 7⟩ [someSample]]).traceFile ⟨0, 7⟩ = some bytes ∧
      textLines bytes =
        some ["sh -c date".toList, "ls, /bin/sh".toList, "10,1,2,3,4,5,6".toList] ∧
      readRow "ls, /bin/sh".toList = none ∧
      ¬ ReadsAsText bytes "sh -c date\nls, /bin/sh" [.sample someSample] := by
  have hfile := (outDirectory .text).traceFile_after [] ⟨0, 7⟩ "sh -c date\nls" "/bin/sh"
    [.samples ⟨0, 7⟩ [someSample]] (by decide)
  refine ⟨_, hfile, ?_, by decide, ?_⟩
  · refine (textLines_file _ _ _).trans ?_
    decide
  · intro h
    exact absurd ((readsAsText_iff "sh -c date\nls" "/bin/sh" _).1 h).1 (by decide)

end CounterTrace
