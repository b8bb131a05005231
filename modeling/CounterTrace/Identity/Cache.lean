import CounterTrace.Identity
import CounterTrace.Table

/-!
# The identity cache

The cache names processes.  A process is loaded when it is first asked for, and again only if a
check is due and the caller allows it: while a packet is being put together, its process must not
change its name.

    (c.resolve pid allow).2.get? q = c.get? q     for every other q        (get?_resolve_of_ne)
-/

namespace CounterTrace

/-- Identities by process, with the loader that they come from. -/
structure IdentityCache (l : Type) where
  loader : l
  entries : Table UInt32 Identity
  /-- Lowest process ever loaded as a template. -/
  earliestTemplate : Option UInt32
  templateName : String
  /-- Budget of checks of each kind for each process. -/
  checks : Nat
  /-- Loads so far. -/
  loads : UInt64

namespace IdentityCache

variable {l : Type}

def defaultChecks : Nat := 10

def defaultTemplateName : String := "zygote"

def new (loader : l) (templateName : String) (checks : Nat) : IdentityCache l :=
  ⟨loader, Table.empty, none, templateName, checks, 0⟩

def get? (c : IdentityCache l) (pid : UInt32) : Option Identity := c.entries.get? pid

def size (c : IdentityCache l) : Nat := c.entries.size

def put (c : IdentityCache l) (e : Identity) : IdentityCache l :=
  { c with entries := c.entries.insert e.pid e }

/-- The lower of a process and the lowest one so far. -/
def lowest (pid : UInt32) : Option UInt32 → UInt32
  | none => pid
  | some p => if pid < p then pid else p

/-- Takes note of an entry that a full load showed to be a template. -/
def noteTemplate (c : IdentityCache l) (e : Identity) (m : Metadata) : IdentityCache l :=
  if m.complete && e.isTemplate then
    { c with earliestTemplate := some (lowest e.pid c.earliestTemplate) }
  else c

/-- Puts the entry of a full load in its place. -/
def settle (c : IdentityCache l) (e : Identity) (m : Metadata) : Identity × IdentityCache l :=
  let e := e.settleLoad m c.templateName
  (e, (c.put e).noteTemplate e m)

variable [MetadataLoader l]

def load (c : IdentityCache l) (pid : UInt32) : Metadata × IdentityCache l :=
  let (m, loader) := MetadataLoader.load c.loader pid
  (m, { c with loader := loader, loads := c.loads + 1 })

/-- Names a process.  A known one is looked at again only if `allow` is set and a check is due. -/
def resolve (c : IdentityCache l) (pid : UInt32) (allow : Bool) : Identity × IdentityCache l :=
  match c.get? pid with
  | none =>
    let (m, c) := c.load pid
    c.settle (Identity.blank pid (Identity.modeOf m) c.checks) m
  | some e =>
    match if allow then e.pending c.earliestTemplate else .none with
    | .none => (e, c)
    | .retry =>
      let (m, c) := c.load pid
      c.settle { e with loadChecks := e.loadChecks - 1 } m
    | .template =>
      let (m, c) := c.load pid
      let e := e.settleCheck m c.templateName
      (e, c.put e)

end IdentityCache

end CounterTrace
