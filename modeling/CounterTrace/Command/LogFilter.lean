import CounterTrace.Failure
import CounterTrace.Text.Blank
import CounterTrace.Text.Lines
import CounterTrace.Text.Numeral

/-!
# Log filters

A log filter is a list of directives with commas between them.  A directive names a level, or a
target with a span and a level, each of which may be left out.

    directive  =  [ target ] [ "[" span [ "{" field { "," field } "}" ] "]" ] [ "=" [ level ] ]
-/

namespace CounterTrace

/-- Why a text is no log filter. -/
inductive LogFilterError where
  | directive
  | level
  deriving DecidableEq, Repr

def LogFilterError.failure : LogFilterError → Failure
  | directive => .cause "invalid filter directive"
  | level =>
    let message := "error parsing level filter: expected one of \"off\", \"error\", \"warn\", " ++
      "\"info\", \"debug\", \"trace\", or a number 0-5"
    .within message (.cause message)

namespace LogFilter

def levels : List String := ["off", "error", "warn", "info", "debug", "trace"]

/-- Whether a text stands for a level: a name in any case, a small number, or nothing. -/
def isLevel (cs : List Char) : Bool :=
  cs.isEmpty || levels.any (fun l => l.toList == cs.map Char.toLower) ||
    match Text.Numeral.read 10 UInt64.size cs with
    | .ok n => n ≤ 5
    | .error _ => false

/-- How far a directive has been read. -/
inductive Progress where
  | start
  | name
  | span
  /-- Inside a field, of which something or nothing has been read. -/
  | field (isEmpty : Bool)
  | fieldsEnd
  | spanEnd
  /-- Inside a level, whose characters are kept backwards. -/
  | level (text : List Char)
  deriving DecidableEq, Repr

/-- Characters that can begin a name. -/
def beginsName (c : Char) : Bool :=
  c.isAlphanum || c == '-' || c == ':' || c == '_' || 0x80 ≤ c.toNat && !Text.isBlank c

/-- Reads one more character. -/
def step : Progress → Char → Except LogFilterError Progress
  | .start, c =>
    if c == '[' then .ok .span else if beginsName c then .ok .name else .error .directive
  | .name, c => .ok (if c == '=' then .level [] else if c == '[' then .span else .name)
  | .span, c => .ok (if c == ']' then .spanEnd else if c == '\x7b' then .field true else .span)
  | .field isEmpty, c =>
    if c == '\x7d' || c == ',' then
      if isEmpty then .error .directive
      else .ok (if c == ',' then .field true else .fieldsEnd)
    else .ok (.field false)
  | .fieldsEnd, c => if c == ']' then .ok .spanEnd else .error .directive
  | .spanEnd, c => if c == '=' then .ok (.level []) else .error .directive
  | .level text, c => .ok (.level (c :: text))

/-- Ends a directive. -/
def finish : Progress → Except LogFilterError Unit
  | .name => .ok ()
  | .spanEnd => .ok ()
  | .level text => if isLevel text.reverse then .ok () else .error .level
  | _ => .error .directive

def checkDirective (cs : List Char) : Except LogFilterError Unit :=
  ((Text.trim cs).foldlM step .start).bind finish

def check (filter : String) : Except LogFilterError Unit :=
  ((Text.splitOn ',' filter.toList).filter (!·.isEmpty)).forM checkDirective

end LogFilter

end CounterTrace
