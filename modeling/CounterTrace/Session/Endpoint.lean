import CounterTrace.Failure

/-!
# Endpoints

A session goes to a collector or into a file: to exactly one of them.
-/

namespace CounterTrace

/-- Where a session goes. -/
inductive Endpoint where
  | collector (address : String)
  | file (path : String)
  deriving DecidableEq, Repr

namespace Endpoint

def display : Endpoint → String
  | collector address => "tcp://" ++ address
  | file path => path

/-- The one of two outputs that is set. -/
def single (address path : String) : Except Failure Endpoint :=
  if address.isEmpty then
    if path.isEmpty then
      .error (.cause "no output configured: set an endpoint or an output file")
    else .ok (.file path)
  else if path.isEmpty then .ok (.collector address)
  else .error (.cause "endpoint and output are mutually exclusive")

end Endpoint

end CounterTrace
