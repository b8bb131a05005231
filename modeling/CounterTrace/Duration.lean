import CounterTrace.Text.Blank

/-!
# Durations

A duration is written as spans, each a number with a unit, and is their sum: `1h 30m`, `1.5s`.  The
text `0` stands for no time at all.  Blanks may stand before a span, between the digits of a number
and before a unit, but not inside a unit.

    span  =  digits [ "." digits ] unit

Every whole number, every product with a unit and every sum has to stay below `wordLimit`.  A
fraction has to come out even: as whole seconds for hours and longer units, as whole nanoseconds
for shorter ones; of a nanosecond there is none.
-/

namespace CounterTrace

/-- Whole seconds and the nanoseconds that remain. -/
structure Duration where
  seconds : Nat
  nanos : Nat
  deriving DecidableEq, Repr

namespace Duration

def zero : Duration := ⟨0, 0⟩

def isZero (d : Duration) : Bool := d.seconds == 0 && d.nanos == 0

def nanosPerSecond : Nat := 1000000000

def inNanos (d : Duration) : Nat := d.seconds * nanosPerSecond + d.nanos

/-! ## Units -/

/-- The limit of every number. -/
def wordLimit : Nat := UInt64.size

def word? (n : Nat) : Option Nat := if n < wordLimit then some n else none

/-- Seconds of a mean month. -/
def monthSeconds : Nat := 2630016

/-- Seconds of a mean year. -/
def yearSeconds : Nat := 31557600

def unitNanos? (name : String) : Option Nat :=
  if ["nanos", "nsec", "ns"].contains name then some 1
  else if ["usec", "us", "µs"].contains name then some 1000
  else if ["millis", "msec", "ms"].contains name then some 1000000
  else if ["seconds", "second", "secs", "sec", "s"].contains name then some nanosPerSecond
  else if ["minutes", "minute", "min", "mins", "m"].contains name then some (60 * nanosPerSecond)
  else if ["hours", "hour", "hr", "hrs", "h"].contains name then some (3600 * nanosPerSecond)
  else if ["days", "day", "d"].contains name then some (86400 * nanosPerSecond)
  else if ["weeks", "week", "wk", "wks", "w"].contains name then some (604800 * nanosPerSecond)
  else if ["months", "month", "M"].contains name then some (monthSeconds * nanosPerSecond)
  else if ["years", "year", "yr", "yrs", "y"].contains name then some (yearSeconds * nanosPerSecond)
  else none

def plus (d : Duration) (seconds nanos : Nat) : Option Duration := do
  let nanos ← word? (d.nanos + nanos)
  let seconds ← word? (d.seconds + seconds + nanos / nanosPerSecond)
  return ⟨seconds, nanos % nanosPerSecond⟩

/-- Adds `n` units of a length, counted in seconds if the unit is not shorter than one. -/
def plusWhole (d : Duration) (unit n : Nat) : Option Duration := do
  if nanosPerSecond ≤ unit then d.plus (← word? (n * (unit / nanosPerSecond))) 0
  else d.plus 0 (← word? (n * unit))

/-- The exact quotient of a product that stays below the limit. -/
def share? (n factor den : Nat) : Option Nat := do
  let product ← word? (n * factor)
  if product % den = 0 then some (product / den) else none

/-- Adds the part `num / den` of a unit, counted in seconds if the unit is not shorter than an
hour. -/
def plusPart (d : Duration) (unit num den : Nat) : Option Duration := do
  if unit = 1 then none
  else if 3600 * nanosPerSecond ≤ unit then d.plus (← share? num (unit / nanosPerSecond) den) 0
  else d.plus 0 (← share? num unit den)

/-! ## Reading -/

/-- How far a text has been read. -/
inductive Progress where
  /-- Before a span. -/
  | between
  /-- Behind some digits of value `n`. -/
  | whole (n : Nat)
  /-- Behind the point, with the fraction so far. -/
  | part (n num den : Nat)
  /-- Inside a unit, whose letters are kept backwards. -/
  | unit (n num den : Nat) (letters : List Char)
  deriving DecidableEq, Repr

/-- Letters of units. -/
def isLetter (c : Char) : Bool := c.isAlpha || c == 'µ'

def digit (c : Char) : Nat := c.toNat - '0'.toNat

/-- Adds a finished span. -/
def finishSpan (d : Duration) (n num den : Nat) (letters : List Char) : Option Duration := do
  let unit ← unitNanos? (String.ofList letters.reverse)
  let d ← d.plusWhole unit n
  if den = 1 then some d else d.plusPart unit num den

/-- Reads one more character. -/
def step (state : Duration × Progress) (c : Char) : Option (Duration × Progress) :=
  let (d, at_) := state
  match at_ with
  | .between =>
    if c.isDigit then some (d, .whole (digit c))
    else if Text.isBlank c then some state
    else none
  | .whole n =>
    if c.isDigit then (word? (n * 10 + digit c)).map fun n => (d, .whole n)
    else if Text.isBlank c then some state
    else if isLetter c then some (d, .unit n 0 1 [c])
    else if c = '.' then some (d, .part n 0 1)
    else none
  | .part n num den =>
    if c.isDigit then (word? (den * 10)).map fun den => (d, .part n (num * 10 + digit c) den)
    else if Text.isBlank c then some state
    else if isLetter c && den != 1 then some (d, .unit n num den [c])
    else none
  | .unit n num den letters =>
    if isLetter c then some (d, .unit n num den (c :: letters))
    else if c.isDigit then
      (finishSpan d n num den letters).map fun d => (d, .whole (digit c))
    else if Text.isBlank c then (finishSpan d n num den letters).map fun d => (d, .between)
    else none

/-- Ends the text.  There has to be a span, and no number may lack its unit. -/
def finish (cs : List Char) (state : Duration × Progress) : Option Duration :=
  match state with
  | (d, .between) => if cs.all Text.isBlank then none else some d
  | (d, .unit n num den letters) => finishSpan d n num den letters
  | _ => none

def read? (cs : List Char) : Option Duration :=
  if cs = ['0'] then some zero
  else (cs.foldlM step (zero, .between)).bind (finish cs)

end Duration

end CounterTrace
