import CounterTrace.Text.Blank
import CounterTrace.Text.Numeral
import CounterTrace.Failure

/-!
# Capture control

Knobs steer a capture: the overflow period, four event selectors, the status and the count of
missed samples.  Knobs are written as text, decimal or hexadecimal.  A period that is written takes
effect with the next start, and never below the smallest period.

    parseValue cs = .ok n      a plain or a hexadecimal numeral between blanks, below 2 ^ 32
    c.write knob raw           changes at most the one knob; a status only asks for a change
-/

namespace CounterTrace

open Text

/-! ## Knobs and their values -/

/-- Whether a capture runs. -/
inductive Status where
  | stopped
  | running
  | dump
  deriving DecidableEq, Repr

namespace Status

def ofCode? (code : UInt32) : Option Status :=
  if code = 0 then some stopped
  else if code = 1 then some running
  else if code = 2 then some dump
  else none

def code : Status → UInt32
  | stopped => 0
  | running => 1
  | dump => 2

def name : Status → String
  | stopped => "stopped"
  | running => "running"
  | dump => "dump"

theorem ofCode?_code (s : Status) : ofCode? s.code = some s := by cases s <;> rfl

end Status

def selectorCount : Nat := 4

/-- What can be read and written. -/
inductive Knob where
  | period
  | status
  | missed
  | event (index : Nat)
  deriving DecidableEq, Repr

/-- The knob with a given name: `ctr` and a number below four names an event selector. -/
def Knob.ofName? (name : String) : Option Knob :=
  match name.toList with
  | ['p', 'e', 'r', 'i', 'o', 'd'] => some .period
  | ['s', 't', 'a', 't', 'u', 's'] => some .status
  | ['m', 'i', 's', 's', 'e', 'd'] => some .missed
  | 'c' :: 't' :: 'r' :: digits =>
    match Numeral.read 10 UInt64.size digits with
    | .ok i => if i < selectorCount then some (.event i) else none
    | .error _ => none
  | _ => none

/-- Why a knob could not be written. -/
inductive KnobError where
  | invalidHex (text : String) (why : Numeral.NumeralError)
  | invalidDecimal (text : String) (why : Numeral.NumeralError)
  | noSelector (index : Nat)
  | unknownStatus (code : UInt32)
  deriving DecidableEq, Repr

def KnobError.failure : KnobError → Failure
  | .invalidHex text why => .within s!"invalid hex value: {text}" (.cause why.message)
  | .invalidDecimal text why => .within s!"invalid value: {text}" (.cause why.message)
  | .noSelector i => .cause s!"no event selector {i}"
  | .unknownStatus v => .cause s!"unknown status code {v}"

/-- Reads the value of a knob from trimmed text. -/
def parseTrimmed (cs : List Char) : Except KnobError UInt32 :=
  let hex (digits : List Char) :=
    match Numeral.read 16 UInt32.size digits with
    | .ok n => .ok (UInt32.ofNat n)
    | .error why => .error (.invalidHex (String.ofList cs) why)
  match cs with
  | '0' :: 'x' :: digits => hex digits
  | '0' :: 'X' :: digits => hex digits
  | _ =>
    match Numeral.read 10 UInt32.size cs with
    | .ok n => .ok (UInt32.ofNat n)
    | .error why => .error (.invalidDecimal (String.ofList cs) why)

def parseValue (raw : String) : Except KnobError UInt32 := parseTrimmed (trim raw.toList)

/-! ## The control block -/

/-- What a written status asks for. -/
inductive StatusRequest where
  | start
  | stop
  | dump
  deriving DecidableEq, Repr

/-- All knobs and counts of a capture. -/
structure Control where
  /-- Requested period, in effect from the next start. -/
  period : UInt32
  /-- Period of the present run. -/
  activePeriod : UInt32
  events : Vector UInt32 selectorCount
  status : Status
  missed : UInt32
  overflows : UInt64
  deriving DecidableEq, Repr

namespace Control

def minPeriod : UInt32 := 10000

/-- Period of a capture that asks for none. -/
def defaultPeriod : UInt32 := 1000000

/-- Event selectors of a capture that asks for none. -/
def defaultEvents : List UInt32 := [8, 0, 0, 0]

/-- Raises a period to the smallest one. -/
def clampPeriod (p : UInt32) : UInt32 := if p < minPeriod then minPeriod else p

/-- A stopped capture.  Selectors past the fourth are dropped, missing ones are zero. -/
def new (period : UInt32) (events : List UInt32) : Control where
  period := period
  activePeriod := clampPeriod period
  events := Vector.ofFn fun i => events.getD i.val 0
  status := .stopped
  missed := 0
  overflows := 0

/-- A stopped capture with the usual settings. -/
def default : Control := new defaultPeriod defaultEvents

def isRunning (c : Control) : Bool := c.status == .running

def eventSelect? (c : Control) (i : Nat) : Option UInt32 := c.events[i]?

def eventSelects (c : Control) : List UInt32 := c.events.toList

def recordMissed (c : Control) : Control := { c with missed := c.missed + 1 }

def recordOverflow (c : Control) : Control := { c with overflows := c.overflows + 1 }

/-- Enters the running state with the requested period, raised to the smallest one. -/
def begin (c : Control) : Control :=
  let p := clampPeriod c.period
  { c with period := p, activePeriod := p, status := .running }

def halt (c : Control) : Control := { c with status := .stopped }

/-- The value of a knob; a selector that does not exist reads as zero. -/
def read (c : Control) : Knob → UInt32
  | .period => c.period
  | .status => c.status.code
  | .missed => c.missed
  | .event i => (c.eventSelect? i).getD 0

/-- Puts a value into a knob.  Gives the request that a status stands for. -/
def set (c : Control) (v : UInt32) : Knob → Except KnobError (Option StatusRequest × Control)
  | .period => .ok (none, { c with period := v })
  | .missed => .ok (none, { c with missed := v })
  | .event i =>
    if h : i < selectorCount then .ok (none, { c with events := c.events.set i v h })
    else .error (.noSelector i)
  | .status =>
    match Status.ofCode? v with
    | some .stopped => .ok (some .stop, c)
    | some .running => .ok (some .start, c)
    | some .dump => .ok (some .dump, c)
    | none => .error (.unknownStatus v)

def write (c : Control) (knob : Knob) (raw : String) :
    Except KnobError (Option StatusRequest × Control) :=
  match parseValue raw with
  | .ok v => c.set v knob
  | .error e => .error e

end Control

end CounterTrace
