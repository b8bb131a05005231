import CounterTrace.Control.KnobFile
import CounterTrace.Settings.Reading
import CounterTrace.Yaml.Tree

/-!
# Settings files

A settings file is a YAML text.  Loading one fails if it cannot be read as text, if it holds no
settings, or if the settings break a rule.
-/

namespace CounterTrace

/-- Why settings could not be loaded. -/
inductive LoadError where
  | unreadable (why : String)
  | malformed
  | invalid (rule : SettingsError)
  deriving DecidableEq, Repr

def LoadError.failure (path : String) : LoadError → Failure
  | unreadable why => .within s!"reading config file {path}" (.cause why)
  | malformed => .within s!"parsing config file {path}" (.cause "not a settings document")
  | invalid rule => .cause rule.message

namespace Settings

def ofYaml? (text : String) : Option Settings :=
  (Yaml.read? text.toList).bind (ofValue? .yaml)

/-- Loads what a file holds, or the reason why it could not be read. -/
def load (content : Except String (List UInt8)) : Except LoadError Settings :=
  match content.bind textOf with
  | .error why => .error (.unreadable why)
  | .ok text =>
    match ofYaml? text with
    | none => .error .malformed
    | some s =>
      match s.check with
      | .error rule => .error (.invalid rule)
      | .ok () => .ok s

end Settings

end CounterTrace
