import CounterTrace.Buffer.RecordReader
import CounterTrace.Control.KnobFile
import CounterTrace.FileError
import CounterTrace.Identity.ProcessTable

/-!
# Machines

A machine is what commands run on: its files, its processes, its network and its screen.  Commands
are written for any machine.
-/

namespace CounterTrace

open Bytes

/-- What commands ask of the machine that they run on.  Whatever is refused is refused with a
reason. -/
class Machine (m : Type → Type) where
  /-- Opens a file and gives what can be read of it. -/
  openFile : String → m (Except String Supply)
  /-- Makes a file that is empty. -/
  createFile : String → m (Except String Unit)
  /-- Fills a file that was created. -/
  fillFile : String → List UInt8 → m Unit
  /-- Makes a directory. -/
  createDirectory : String → m (Except String Unit)
  /-- The place of a directory from the root on. -/
  locate : String → m String
  /-- Reaches a collector. -/
  connect : String → m (Except String Unit)
  /-- Sends bytes to a collector that was reached. -/
  deliver : String → List UInt8 → m Unit
  /-- Makes an address ready for listening. -/
  listen : String → m (Except String Unit)
  /-- Takes everything that one sender sends to an address. -/
  receive : String → m (Except String Supply)
  /-- The processes whose directories are below another one. -/
  processes : String → m ProcessTable
  /-- The process that the program itself runs as. -/
  ownPid : m UInt32
  /-- Shows a text. -/
  print : String → m Unit

namespace Machine

variable {m : Type → Type} [Monad m] [Machine m]

def readFile (path : String) : m (Except String (List UInt8)) := do
  match ← openFile path with
  | .error why => return .error why
  | .ok supply =>
    match supply.failure with
    | some why => return .error why
    | none => return .ok supply.bytes

def readFiles (paths : List String) : m FileReader := do
  let contents ← paths.mapM fun path => return (path, ← readFile path)
  return fun path => (contents.lookup path).getD (.error FileError.notFound.message)

end Machine

end CounterTrace
