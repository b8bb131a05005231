/-!
# Process identities

An identity is what is known of a process: command line, executable and mode.  It keeps two budgets
of checks.  Load checks are left while the last full load failed; template checks are left while
the process looks like the template that others are forked from, whose name a child carries until
it has loaded its own program.

    Identity.settleLoad       after a full load
    Identity.settleCheck      after a look at a template
    Identity.pending          which of the two is due
-/

namespace CounterTrace

/-- Whether a process runs in the kernel or has a program of its own. -/
inductive Mode where
  | kernel
  | user
  deriving DecidableEq, Repr

def Mode.name : Mode → String
  | .kernel => "kernel"
  | .user => "user"

/-- What one look at a process shows. -/
structure Metadata where
  cmdline : String := ""
  executable : String := ""
  /-- Whether both could be read. -/
  complete : Bool := false
  deriving DecidableEq, Repr, Inhabited

/-- Whoever can look at processes.  The same process may look different each time. -/
class MetadataLoader (l : Type) where
  load : l → UInt32 → Metadata × l

/-- What is known of one process. -/
structure Identity where
  pid : UInt32
  cmdline : String
  executable : String
  mode : Mode
  loadChecks : Nat
  templateChecks : Nat
  loadFailed : Bool
  isTemplate : Bool
  deriving DecidableEq, Repr

/-- The kind of look that is due for a known process. -/
inductive Revalidation where
  | none
  | retry
  | template
  deriving DecidableEq, Repr

/-- The first word of a command line. -/
def programName (cmdline : String) : List Char := cmdline.toList.takeWhile (· != ' ')

namespace Identity

/-- The mode of a process that shows this at first sight. -/
def modeOf (m : Metadata) : Mode :=
  if m.cmdline.isEmpty && m.executable.isEmpty then .kernel else .user

/-- A process before its first load is settled. -/
def blank (pid : UInt32) (mode : Mode) (checks : Nat) : Identity where
  pid := pid
  cmdline := ""
  executable := ""
  mode := mode
  loadChecks := checks
  templateChecks := checks
  loadFailed := false
  isTemplate := false

def isKernel (e : Identity) : Bool := e.mode == .kernel

/-- Takes over what a look showed. -/
def apply (e : Identity) (m : Metadata) : Identity :=
  { e with cmdline := m.cmdline, executable := m.executable }

/-- Decides by its name whether the process is a template.  One that is not needs no more template
checks. -/
def classify (e : Identity) (template : String) : Identity :=
  if programName e.cmdline == template.toList then { e with isTemplate := true }
  else { e with isTemplate := false, templateChecks := 0 }

def settleLoad (e : Identity) (m : Metadata) (template : String) : Identity :=
  let e := { e.apply m with loadFailed := !m.complete }
  if m.complete then { e with loadChecks := 0 }.classify template else e

/-- Settles a look at a template.  An incomplete one ends the checks and changes no verdict. -/
def settleCheck (e : Identity) (m : Metadata) (template : String) : Identity :=
  let e := { e with templateChecks := e.templateChecks - 1 }.apply m
  if m.complete then e.classify template else { e with templateChecks := 0 }

/-- What is due, given the lowest process ever found to be a template. -/
def pending (e : Identity) (earliest : Option UInt32) : Revalidation :=
  if e.loadFailed && 0 < e.loadChecks then .retry
  else if e.isTemplate && (earliest.any (· < e.pid) || 0 < e.templateChecks) then .template
  else .none

end Identity

end CounterTrace
