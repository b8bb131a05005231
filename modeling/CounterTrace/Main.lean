import CounterTrace.Program
import Std.Async.DNS
import Std.Async.TCP

/-!
# The command line

The machine that the program really runs on, and its main function.
-/

namespace CounterTrace.Main

open Bytes
open Std.Async

/-- Connections to collectors, by address. -/
abbrev Connections := List (String × TCP.Socket.Client)

/-- Steps on the real machine. -/
abbrev Host := StateT Connections IO

/-- A reason with its number, which some sources give below zero. -/
def numbered (code : UInt32) (details : String) : String :=
  let n := if code < 0x80000000 then code else -code
  s!"{details} (os error {n})"

def reason : IO.Error → String
  | .noFileOrDirectory _ _ _ => FileError.notFound.message
  | .alreadyExists _ _ _ => FileError.exists.message
  | .permissionDenied _ code _ => numbered code "Permission denied"
  | .inappropriateType _ code details => numbered code details
  | .noSuchThing _ code details => numbered code details
  | .resourceVanished code details => numbered code details
  | .resourceBusy code details => numbered code details
  | .otherError code details => numbered code details
  | e => toString e

def attempt {α : Type} (act : IO α) : IO (Except String α) := do
  try
    return .ok (← act)
  catch e => return .error (reason e)

def attempt? {α : Type} (act : IO α) : IO (Option α) := return (← attempt act).toOption

/-! ## Files -/

/-- Opens a file.  A directory can be opened too, but not read. -/
def openFile (path : String) : IO Supply := do
  let place ← IO.FS.realPath path
  if ← place.isDir then return ⟨[], some FileError.isDirectory.message⟩
  else return .ofBytes (← IO.FS.readBinFile path).toList none none ""

def writeFile (path : String) (bytes : List UInt8) : IO Unit :=
  IO.FS.writeBinFile path ⟨bytes.toArray⟩

/-! ## Processes -/

def processFiles (dir : String) : IO ProcessFiles := do
  let cmdline ← attempt? (IO.FS.readBinFile (Path.join dir "cmdline"))
  let executable ← attempt? (IO.FS.realPath (Path.join dir "exe"))
  return ⟨cmdline.map ByteArray.toList, executable.map fun p => Utf8.encode p.toString⟩

def processes (root : String) : IO ProcessTable := do
  let names ← (← (← IO.FS.realPath root).readDir).toList.filterMapM fun entry =>
    return if entry.fileName.isNat then some entry.fileName else none
  return ⟨← names.mapM fun name => return (name, ← processFiles (Path.join root name))⟩

def ownPid : IO UInt32 := do
  let place ← attempt? (IO.FS.realPath "/proc/self")
  return UInt32.ofNat ((place.bind fun p => p.fileName.bind String.toNat?).getD 1)

/-! ## Network -/

def resolve (address : String) : IO Std.Net.SocketAddress := do
  let (host, port) := (Address.hostAndPort? address).getD (address, "")
  let number := (Address.portNumber? port).getD 0
  let found : Array Std.Net.IPAddr ← (DNS.getAddrInfo host port).block
  match found.toList.head? with
  | some (.v4 addr) => return .v4 ⟨addr, number⟩
  | some (.v6 addr) => return .v6 ⟨addr, number⟩
  | none => throw (IO.userError "failed to lookup address information")

def connect (address : String) : IO TCP.Socket.Client := do
  let client ← TCP.Socket.Client.mk
  (client.connect (← resolve address)).block
  return client

def listen (address : String) : IO TCP.Socket.Server := do
  let server ← TCP.Socket.Server.mk
  server.bind (← resolve address)
  server.listen 16
  return server

/-- Everything that comes over a connection. -/
partial def receiveAll (client : TCP.Socket.Client) (pieces : List (List UInt8)) : IO Supply := do
  match ← attempt (client.recv? 65536).block with
  | .error why => return ⟨pieces.reverse, some why⟩
  | .ok none => return ⟨pieces.reverse, none⟩
  | .ok (some bytes) => receiveAll client (bytes.toList :: pieces)

instance : Machine Host where
  openFile path := attempt (openFile path)
  createFile path := attempt (writeFile path [])
  fillFile path bytes := writeFile path bytes
  createDirectory path := attempt (IO.FS.createDir path)
  locate path := return ((← attempt? (IO.FS.realPath path)).map toString).getD path
  connect address := do
    match ← attempt (connect address) with
    | .error why => return .error why
    | .ok client =>
      modify ((address, client) :: ·)
      return .ok ()
  deliver address bytes := do
    match (← get).lookup address with
    | none => return ()
    | some client =>
      (client.send ⟨bytes.toArray⟩).block
      client.shutdown.block
  listen address := return (← attempt (listen address)).map fun _ => ()
  receive address := attempt do
    let client ← (← listen address).accept.block
    receiveAll client []
  processes root := return (← attempt? (processes root)).getD {}
  ownPid := ownPid
  print text := do
    (← IO.getStdout).putStr text

end CounterTrace.Main

def main (args : List String) : IO UInt32 := do
  let (exit, _) ← (CounterTrace.Program.run args : CounterTrace.Main.Host CounterTrace.Exit).run []
  if let some report := exit.report then (← IO.getStderr).putStr report
  return UInt32.ofNat exit.code
