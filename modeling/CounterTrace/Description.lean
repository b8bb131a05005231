import CounterTrace.Text.Blank
import CounterTrace.Text.Lines

/-!
# Session descriptions

A session begins with a text of lines `key:  value`: the period and one line for each event
counter, blank where no selector is configured.

    (ofSettings period events).field? "period" = some (the period in decimal)
-/

namespace CounterTrace

/-- The text at the head of a session. -/
structure Description where
  text : String
  deriving DecidableEq, Repr, Inhabited

namespace Description

def eventLines : Nat := 6

def fieldLine (key value : String) : String := key ++ ":  " ++ value ++ "\n"

def eventKey (i : Nat) : String := "event" ++ toString (i + 1)

/-- Describes a capture by its period and its event selectors, of which the first six show. -/
def ofSettings (period : UInt32) (events : List UInt32) : Description where
  text := String.join (fieldLine "period" (toString period.toNat) ::
    (List.range eventLines).map fun i =>
      fieldLine (eventKey i) ((events[i]?).elim "" fun v => toString v.toNat))

/-- The value of a line, if it is the line of the given key. -/
def valueOf? (key : List Char) (line : List Char) : Option (List Char) :=
  match Text.splitOnce ':' line with
  | none => none
  | some (k, v) => if k = key then some (Text.trim v) else none

/-- The value of the first line with the given key. -/
def field? (d : Description) (key : String) : Option String :=
  ((Text.lines d.text.toList).findSome? (valueOf? key.toList)).map String.ofList

end Description

end CounterTrace
