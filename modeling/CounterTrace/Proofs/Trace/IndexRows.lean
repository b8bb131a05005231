import CounterTrace.Proofs.Text.Parts
import CounterTrace.Proofs.Text.Utf8
import CounterTrace.Trace.Directory

/-!
# Reading the index

The index is a table of comma-separated values, read character by character.  The reader knows
where in a field it is, for a comma or a line feed between quotes is a part of the field, and a
quote there ends the field unless another one follows.  It accepts nothing that readers disagree
about: no quote and no carriage return in a field without quotes, nothing behind a closing quote,
and no last row without its line feed.

    r.read (csvField s) = r with the characters of s in its field                 (read_csvField)
    r.read (csvRow fields) = r with one more row                                    (read_csvRow)
    readTable (encode (rows, each as csvRow)) = some rows                 (readTable_encode_join)
-/

namespace CounterTrace

/-! ## The reader -/

/-- Where in a field a reader is. -/
inductive CsvPlace where
  | first
  | plain
  | quoted
  /-- Behind a quote that ends the field, unless another quote follows. -/
  | closed
  deriving DecidableEq, Repr

/-- A table as far as it was read: whole rows, whole fields of the row that goes on, and the
characters of the field that goes on. -/
structure CsvReader where
  rows : List (List String) := []
  row : List String := []
  field : List Char := []
  place : CsvPlace := .first
  deriving DecidableEq, Repr

namespace CsvReader

/-- Takes a character into the field. -/
def take (r : CsvReader) (c : Char) (place : CsvPlace) : CsvReader :=
  { r with field := r.field ++ [c], place := place }

def endField (r : CsvReader) : CsvReader :=
  { rows := r.rows, row := r.row ++ [String.ofList r.field] }

def endRow (r : CsvReader) : CsvReader :=
  { rows := r.rows ++ [r.row ++ [String.ofList r.field]] }

/-- Reads a character, if it may stand there. -/
def step (r : CsvReader) (c : Char) : Option CsvReader :=
  if r.place = .quoted then
    some (if c = '"' then { r with place := .closed } else r.take c .quoted)
  else if c = ',' then some r.endField
  else if c = '\n' then some r.endRow
  else if c = '"' then
    match r.place with
    | .first => some { r with place := .quoted }
    | .closed => some (r.take c .quoted)
    | _ => none
  else if c = '\r' ∨ r.place = .closed then none
  else some (r.take c .plain)

def read (r : CsvReader) (cs : List Char) : Option CsvReader := cs.foldlM step r

end CsvReader

/-- The rows of a table, each of which is ended by a line feed. -/
def readTable (bytes : List UInt8) : Option (List (List String)) := do
  let text ← Utf8.decode? bytes
  let r ← CsvReader.read {} text.toList
  if r.row = [] ∧ r.place = .first then some r.rows else none

def csvRow (fields : List String) : String := ",".intercalate (fields.map csvField) ++ "\n"

def IndexEntry.fields (e : IndexEntry) : List String :=
  [toString e.key.pid.toNat, toString e.key.core.toNat, e.cmdline, e.executable, e.location]

def indexColumns : List String := ["pid", "core", "cmdline", "exe", "path"]

namespace CsvReader

/-! ## Fields -/

theorem read_cons (r : CsvReader) (c : Char) (cs : List Char) :
    r.read (c :: cs) = (r.step c).bind (·.read cs) := List.foldlM_cons

theorem read_append (r : CsvReader) (cs ds : List Char) :
    r.read (cs ++ ds) = (r.read cs).bind (·.read ds) := List.foldlM_append

section
variable {r : CsvReader}

theorem step_comma (h : r.place ≠ .quoted) : r.step ',' = some r.endField := by
  unfold step
  rw [if_neg h, if_pos rfl]

theorem step_newline (h : r.place ≠ .quoted) : r.step '\n' = some r.endRow := by
  unfold step
  rw [if_neg h, if_neg (by decide), if_pos rfl]

/-- Outside of quotes, characters that need none are read as they are. -/
theorem read_plain {cs : List Char} (hquoted : r.place ≠ .quoted) (hclosed : r.place ≠ .closed)
    (hcs : needsQuotes cs = false) :
    ∃ place, place ≠ .quoted ∧
      r.read cs = some { r with field := r.field ++ cs, place := place } := by
  induction cs generalizing r with
  | nil =>
    refine ⟨r.place, hquoted, ?_⟩
    rw [List.append_nil]
    rfl
  | cons c cs ih =>
    simp only [needsQuotes, List.any_cons, Bool.or_eq_false_iff, beq_eq_false_iff_ne] at hcs
    obtain ⟨⟨⟨⟨hcomma, hquote⟩, hnewline⟩, hreturn⟩, hrest⟩ := hcs
    have hstep : r.step c = some (r.take c .plain) := by
      unfold step
      rw [if_neg hquoted, if_neg hcomma, if_neg hnewline, if_neg hquote,
        if_neg (not_or.2 ⟨hreturn, hclosed⟩)]
    obtain ⟨place, hplace, hread⟩ := ih (r := r.take c .plain) nofun nofun hrest
    refine ⟨place, hplace, ?_⟩
    rw [read_cons, hstep, Option.bind_some, hread, take, List.append_assoc]
    rfl

/-- Between quotes, doubled quotes are read as quotes and all else as it is. -/
theorem read_doubled (h : r.place = .quoted) (cs : List Char) :
    r.read (cs.flatMap fun c => if c = '"' then ['"', '"'] else [c]) =
      some { r with field := r.field ++ cs } := by
  induction cs generalizing r with
  | nil =>
    rw [List.append_nil]
    rfl
  | cons c cs ih =>
    have hrest := ih (r := r.take c .quoted) rfl
    have htaken :
        (r.take c .quoted).read (cs.flatMap fun c => if c = '"' then ['"', '"'] else [c]) =
          some { r with field := r.field ++ c :: cs } := by
      rw [hrest, take, List.append_assoc, ← h]
      rfl
    rw [List.flatMap_cons]
    by_cases hc : c = '"'
    · subst hc
      have hfirst : r.step '"' = some { r with place := .closed } := by
        unfold step
        rw [if_pos h, if_pos rfl]
      have hsecond : ({ r with place := .closed } : CsvReader).step '"' =
          some (r.take '"' .quoted) := by
        unfold step
        rw [if_neg (by simp), if_neg (by decide), if_neg (by decide), if_pos rfl]
        rfl
      rw [if_pos rfl, List.cons_append, List.cons_append, List.nil_append, read_cons, hfirst,
        Option.bind_some, read_cons, hsecond, Option.bind_some, htaken]
    · have hstep : r.step c = some (r.take c .quoted) := by
        unfold step
        rw [if_pos h, if_neg hc]
      rw [if_neg hc, List.cons_append, List.nil_append, read_cons, hstep, Option.bind_some, htaken]

end

/-- Any field can stand in quotes. -/
theorem read_inQuotes (rows : List (List String)) (row : List String) (cs : List Char) :
    read { rows := rows, row := row }
        ('"' :: cs.flatMap (fun c => if c = '"' then ['"', '"'] else [c]) ++ ['"']) =
      some { rows := rows, row := row, field := cs, place := .closed } := by
  have hopen : step { rows := rows, row := row } '"' =
      some { rows := rows, row := row, place := .quoted } := rfl
  have hinside := read_doubled (r := { rows := rows, row := row, place := .quoted }) rfl cs
  have hclose : step { rows := rows, row := row, field := cs, place := .quoted } '"' =
      some { rows := rows, row := row, field := cs, place := .closed } := rfl
  rw [List.cons_append, read_cons, hopen, Option.bind_some, read_append, hinside, Option.bind_some,
    List.nil_append, read_cons, hclose]
  rfl

example : read {} "\"say \"\"hi, you\"\"\"".toList =
    some { field := "say \"hi, you\"".toList, place := .closed } := by
  decide

/-- A field that was written is read, whether it was put into quotes or not. -/
theorem read_csvField (rows : List (List String)) (row : List String) (s : String) :
    ∃ place, place ≠ .quoted ∧
      read { rows := rows, row := row } (csvField s).toList =
        some { rows := rows, row := row, field := s.toList, place := place } := by
  unfold csvField
  by_cases hs : needsQuotes s.toList = true
  · simp only [hs, if_true, String.toList_ofList]
    exact ⟨.closed, nofun, read_inQuotes rows row s.toList⟩
  · rw [if_neg hs]
    exact read_plain (r := { rows := rows, row := row }) nofun nofun (Bool.eq_false_iff.2 hs)

/-! ## Rows -/

/-- Fields with commas between them are read, and the line feed behind them ends the row. -/
theorem read_fields {fields : List String} (hfields : fields ≠ []) (rows : List (List String))
    (row : List String) :
    read { rows := rows, row := row }
        ([','].intercalate (fields.map fun s => (csvField s).toList) ++ ['\n']) =
      some { rows := rows ++ [row ++ fields] } := by
  induction fields generalizing row with
  | nil => exact absurd rfl hfields
  | cons s fields ih =>
    obtain ⟨place, hplace, hread⟩ := read_csvField rows row s
    cases fields with
    | nil =>
      have hend := step_newline (r := ⟨rows, row, s.toList, place⟩) hplace
      rw [List.map_singleton, List.intercalate_singleton, read_append, hread, Option.bind_some,
        read_cons, hend, Option.bind_some, endRow, String.ofList_toList]
      rfl
    | cons next fields =>
      have hend := step_comma (r := ⟨rows, row, s.toList, place⟩) hplace
      have hrest := ih (List.cons_ne_nil next fields) (row ++ [s])
      rw [List.append_assoc, List.singleton_append] at hrest
      rw [List.map_cons, List.map_cons, List.intercalate_cons_cons, List.append_assoc,
        List.append_assoc, read_append, hread, Option.bind_some, List.singleton_append, read_cons,
        hend, Option.bind_some, endField, String.ofList_toList]
      exact hrest

theorem read_csvRow {fields : List String} (hfields : fields ≠ []) (rows : List (List String)) :
    read { rows := rows } (csvRow fields).toList = some { rows := rows ++ [fields] } := by
  have htext : (csvRow fields).toList =
      [','].intercalate (fields.map fun s => (csvField s).toList) ++ ['\n'] := by
    simp only [csvRow, String.toList_append, String.toList_intercalate, List.map_map]
    rfl
  rw [htext, read_fields hfields, List.nil_append]

theorem read_rows {table : List (List String)} (htable : ∀ fields ∈ table, fields ≠ [])
    (rows : List (List String)) :
    read { rows := rows } (table.flatMap fun fields => (csvRow fields).toList) =
      some { rows := rows ++ table } := by
  induction table generalizing rows with
  | nil =>
    rw [List.append_nil]
    rfl
  | cons fields table ih =>
    have hrow := read_csvRow (htable fields List.mem_cons_self) rows
    have hrest := ih (fun other hother => htable other (List.mem_cons_of_mem _ hother))
      (rows ++ [fields])
    rw [List.flatMap_cons, read_append, hrow, Option.bind_some, hrest, List.append_assoc,
      List.singleton_append]

end CsvReader

/-- A table whose rows have a field at least is read back. -/
theorem readTable_encode_join {table : List (List String)}
    (htable : ∀ fields ∈ table, fields ≠ []) :
    readTable (Utf8.encode (String.join (table.map csvRow))) = some table := by
  have hdecode :=
    Utf8.decode?_eq_some_iff.2 (rfl : Utf8.encode (String.join (table.map csvRow)) = _)
  have htext : (String.join (table.map csvRow)).toList =
      table.flatMap fun fields => (csvRow fields).toList := by
    rw [String.toList_join, List.flatMap_map]
  have hread := CsvReader.read_rows htable []
  rw [← htext] at hread
  simp only [readTable, hdecode, Option.bind_eq_bind, Option.bind_some, hread]
  rfl

/-! ## The index -/

theorem csvField_toString (n : Nat) : csvField (toString n) = toString n := by
  have hdigit : needsQuotes (toString n).toList = false := by
    refine List.any_eq_false.2 fun c hc => ?_
    have hne : ∀ d : Char, d.isDigit = false → c ≠ d := by
      intro d hd heq
      exact Text.not_mem_toString hd n (heq ▸ hc)
    simp [hne ',' (by decide), hne '"' (by decide), hne '\n' (by decide), hne '\r' (by decide)]
  unfold csvField
  simp only [hdigit]
  rfl

theorem indexRow_eq (e : IndexEntry) : indexRow e = csvRow e.fields := by
  simp only [indexRow, csvRow, IndexEntry.fields, List.map_cons, List.map_nil, csvField_toString]

theorem indexText_eq (entries : List IndexEntry) :
    indexText entries =
      String.join ((indexColumns :: entries.map IndexEntry.fields).map csvRow) := by
  have hheader : indexHeader = csvRow indexColumns := by decide
  have hrows : entries.map indexRow = (entries.map IndexEntry.fields).map csvRow := by
    rw [List.map_map]
    exact List.map_congr_left fun e _ => indexRow_eq e
  rw [indexText, hheader, hrows, List.map_cons, String.join_cons]

/-- **The index is read back.**  Whatever a directory holds and whatever texts the entries have, the
index that is written is one row with the names of the columns and then one row of five fields for
each entry, in order: process and core in decimal, and the command line, the executable and the
location character for character. -/
theorem index_reads_back (d : TraceDirectory) (entries : List IndexEntry) :
    ∃ d' bytes, TraceWriter.writeIndex d entries = (.ok (), d') ∧
      d'.files.get? TraceDirectory.indexName = some bytes ∧
      readTable bytes = some (indexColumns :: entries.map IndexEntry.fields) := by
  refine ⟨_, Utf8.encode (indexText entries), rfl, ?_, ?_⟩
  · show (d.files.insert _ _).get? _ = _
    rw [Table.get?_insert, if_pos rfl]
  · rw [indexText_eq]
    refine readTable_encode_join fun fields hfields => ?_
    rcases List.mem_cons.1 hfields with rfl | hfields
    · decide
    · obtain ⟨e, -, rfl⟩ := List.mem_map.1 hfields
      exact List.cons_ne_nil _ _

end CounterTrace
