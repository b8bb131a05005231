import CounterTrace.Identity
import CounterTrace.Text.Lines
import CounterTrace.Text.Utf8

/-!
# Process tables

A process table holds a directory for each process, named by its number, with a file of arguments
that each end in NUL and a link to the executable.  The command line is the non-empty arguments,
with a blank between each two.
-/

namespace CounterTrace

/-- What can be read of one process. -/
structure ProcessFiles where
  cmdline : Option (List UInt8) := none
  executable : Option (List UInt8) := none
  deriving DecidableEq, Repr

/-- Process directories by name. -/
structure ProcessTable where
  directories : List (String × ProcessFiles) := []
  deriving Repr

/-- Scripted looks at processes: each takes the next item of its process, and the last one stays. -/
structure MetadataScript where
  items : List (UInt32 × List Metadata) := []
  deriving Repr

namespace ProcessTable

/-- Joins the arguments of a process to its command line. -/
def joinArguments (bytes : List UInt8) : String :=
  let arguments := (Text.splitOn '\x00' (Utf8.decodeLenient bytes).toList).filter (!·.isEmpty)
  String.ofList (List.intercalate [' '] arguments)

/-- Looks at a process.  What cannot be read is empty and makes the look incomplete. -/
def look (t : ProcessTable) (pid : UInt32) : Metadata :=
  let files := (t.directories.lookup (toString pid)).getD {}
  { cmdline := files.cmdline.elim "" joinArguments
    executable := files.executable.elim "" Utf8.decodeLenient
    complete := files.cmdline.isSome && files.executable.isSome }

instance : MetadataLoader ProcessTable where
  load t pid := (t.look pid, t)

end ProcessTable

namespace MetadataScript

/-- Takes the next item of a process and leaves the last one in place. -/
def advance (pid : UInt32) : List (UInt32 × List Metadata) → Metadata × List (UInt32 × List Metadata)
  | [] => ({}, [])
  | (p, ms) :: rest =>
    if p = pid then
      match ms with
      | [] => ({}, (p, ms) :: rest)
      | [m] => (m, (p, ms) :: rest)
      | m :: next => (m, (p, next) :: rest)
    else
      let (m, rest) := advance pid rest
      (m, (p, ms) :: rest)

instance : MetadataLoader MetadataScript where
  load s pid :=
    let (m, items) := advance pid s.items
    (m, ⟨items⟩)

end MetadataScript

end CounterTrace
