import CounterTrace.Control
import CounterTrace.Description
import CounterTrace.Path
import CounterTrace.Text.Utf8

/-!
# Knob files

A running capture shows its knobs as files.  The period is in `period`, the event selectors are in
`0` to `3`.  A file is read as text and holds one value.
-/

namespace CounterTrace

/-- The bytes of files by path, or the reason why there are none. -/
abbrev FileReader := String → Except String (List UInt8)

/-- The wording for bytes that are no text. -/
def notTextMessage : String := "stream did not contain valid UTF-8"

def textOf (bytes : List UInt8) : Except String String :=
  match Utf8.decode? bytes with
  | some text => .ok text
  | none => .error notTextMessage

def readText (read : FileReader) (path : String) : Except String String :=
  (read path).bind textOf

def readKnobFile (read : FileReader) (path : String) : Except Failure UInt32 :=
  match readText read path with
  | .error why => .error (.within s!"reading {path}" (.cause why))
  | .ok text =>
    match parseValue text with
    | .ok v => .ok v
    | .error e => .error (.within s!"parsing {path}" e.failure)

/-- Reads the values in several knob files, up to the first that cannot be read. -/
def readKnobFiles (read : FileReader) : List String → Except Failure (List UInt32)
  | [] => .ok []
  | path :: paths =>
    match readKnobFile read path with
    | .error f => .error f
    | .ok v =>
      match readKnobFiles read paths with
      | .error f => .error f
      | .ok vs => .ok (v :: vs)

/-- The files in a directory that show what a capture is set to. -/
def Description.knobPaths (dir : String) : List String :=
  ("period" :: (List.range selectorCount).map toString).map (Path.join dir)

/-- Describes the capture whose knobs are in a directory. -/
def Description.ofKnobFiles (read : FileReader) (dir : String) : Except Failure Description :=
  match readKnobFiles read (knobPaths dir) with
  | .ok (period :: events) => .ok (.ofSettings period events)
  | .ok [] => .ok (.ofSettings 0 [])
  | .error f => .error f

end CounterTrace
