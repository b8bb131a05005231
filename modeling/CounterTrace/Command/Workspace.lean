import CounterTrace.Command.Address
import CounterTrace.Command.Machine
import CounterTrace.Table
import CounterTrace.Text.Lines

/-!
# Workspaces

A workspace is a machine that lies in memory: a directory with files and process tables in it, and
a network on which nobody can be reached.  Nothing exists outside of the directory.

    w.lookup path      what is at a path, or why there is nothing
-/

namespace CounterTrace

open Bytes

/-- The parts of a path below the directory of a workspace. -/
abbrev PathParts := List String

/-- A directory in memory. -/
structure Workspace where
  /-- The directory itself, as it is shown. -/
  root : String
  files : Table PathParts (List UInt8) := Table.empty
  directories : List PathParts := []
  tables : List (PathParts × ProcessTable) := []
  printed : String := ""

namespace Workspace

/-! ## Paths -/

/-- What is at a path. -/
inductive Entry where
  | file (bytes : List UInt8)
  | directory
  deriving DecidableEq, Repr

/-- Goes down one part of a path, or up again. -/
def follow (parts : PathParts) (part : String) : Option PathParts :=
  if part == "" || part == "." then some parts
  else if part == ".." then (if parts.isEmpty then none else some parts.dropLast)
  else some (parts ++ [part])

/-- The parts of a path, unless it leads out of the directory. -/
def partsOf (path : String) : Option PathParts :=
  if path.startsWith "/" then none
  else ((Text.splitOn '/' path.toList).map String.ofList).foldlM follow []

/-- All directories that lie above a path. -/
def above : PathParts → List PathParts
  | [] => []
  | part :: rest => [] :: (above rest).map (part :: ·)

def isDirectory (w : Workspace) (parts : PathParts) : Bool :=
  parts.isEmpty || w.directories.contains parts ||
    w.files.entries.any (fun (p, _) => (above p).contains parts) ||
    w.tables.any fun (p, _) => p == parts || (above p).contains parts

/-- What is at some parts. -/
def entry? (w : Workspace) (parts : PathParts) : Option Entry :=
  if w.isDirectory parts then some .directory
  else (w.files.get? parts).map Entry.file

/-- The way to a path: every directory above it has to be there. -/
def reach (w : Workspace) (path : String) : Except FileError PathParts :=
  match partsOf path with
  | none => .error .notFound
  | some parts =>
    if path.isEmpty then .error .notFound
    else
      match (above parts).find? fun p => !w.isDirectory p with
      | some p => .error (if w.files.contains p then .notDirectory else .notFound)
      | none => .ok parts

def lookup (w : Workspace) (path : String) : Except FileError Entry :=
  match w.reach path with
  | .error e => .error e
  | .ok parts =>
    match w.entry? parts with
    | none => .error .notFound
    | some (.file bytes) => if path.endsWith "/" then .error .notDirectory else .ok (.file bytes)
    | some .directory => .ok .directory

/-! ## The network -/

/-- Why no collector can be reached. -/
def unreachable : String := "Network is unreachable (os error 101)"

/-- Why nobody but the machine itself can listen at an address. -/
def foreignAddress : String := "Cannot assign requested address (os error 99)"

/-- Why the name of a host stands for nothing. -/
def unknownHost : String :=
  "failed to lookup address information: Temporary failure in name resolution"

/-- The hosts that stand for the machine itself. -/
def ownHosts : List String := ["localhost", "127.0.0.1", "0.0.0.0", "[::1]", "[::]"]

/-- Whether a host is given by number. -/
def isNumeric (host : String) : Bool :=
  host.startsWith "[" || host.toList.all fun c => c.isDigit || c == '.'

/-- Looks up the host of an address.  Only hosts that need no name server have one. -/
def resolve (address : String) : Except String String :=
  let host := (Address.hostAndPort? address).elim "" (·.1)
  if ownHosts.contains host || isNumeric host then .ok host else .error unknownHost

/-- Gets an address ready for listening. -/
def listenAt (address : String) : Except String Unit :=
  (resolve address).bind fun host =>
    if ownHosts.contains host then .ok () else .error foreignAddress

/-- Tries to reach an address. -/
def reachAt {α : Type} (address : String) : Except String α :=
  (resolve address).bind fun _ => .error unreachable

/-! ## Changes -/

/-- Opens a file.  A directory can be opened too, but not read. -/
def openFile (w : Workspace) (path : String) : Except FileError Supply :=
  (w.lookup path).map fun
    | .file bytes => .ofBytes bytes none none ""
    | .directory => ⟨[], some FileError.isDirectory.message⟩

/-- Makes an empty file, also in the place of another one. -/
def createFile (w : Workspace) (path : String) : Except FileError Workspace :=
  match w.reach path with
  | .error e => .error e
  | .ok parts =>
    if w.isDirectory parts || path.endsWith "/" then .error .isDirectory
    else .ok { w with files := w.files.insert parts [] }

def fillFile (w : Workspace) (path : String) (bytes : List UInt8) : Workspace :=
  match w.reach path with
  | .error _ => w
  | .ok parts => { w with files := w.files.insert parts bytes }

/-- Makes a directory where there is nothing yet. -/
def createDirectory (w : Workspace) (path : String) : Except FileError Workspace :=
  match w.reach path with
  | .error e => .error e
  | .ok parts =>
    if (w.entry? parts).isSome then .error .exists
    else .ok { w with directories := parts :: w.directories }

/-- A path from the root on. -/
def locate (w : Workspace) (path : String) : String :=
  "/".intercalate (w.root :: (partsOf path).getD [path])

/-- Puts a change into effect unless it is refused. -/
def attempt (change : Workspace → Except FileError Workspace) :
    StateM Workspace (Except String Unit) := do
  match change (← get) with
  | .error e => return .error e.message
  | .ok w =>
    set w
    return .ok ()

instance : Machine (StateM Workspace) where
  openFile path := return ((← get).openFile path).mapError FileError.message
  createFile path := attempt (·.createFile path)
  fillFile path bytes := modify (·.fillFile path bytes)
  createDirectory path := attempt (·.createDirectory path)
  locate path := return (← get).locate path
  connect address := return reachAt address
  deliver _ _ := return ()
  listen address := return listenAt address
  receive address := return reachAt address
  processes root := do
    let tables := (← get).tables
    return ((partsOf root).bind fun parts => List.lookup parts tables).getD {}
  ownPid := return 1
  print text := modify fun w => { w with printed := w.printed ++ text }

end Workspace

end CounterTrace
