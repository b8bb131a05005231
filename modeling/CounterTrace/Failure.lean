/-!
# Failures

A failure is a cause and the contexts in which it happened, the innermost next to the cause.  It
is shown either on one line, outermost context first, or as a report for the end of a run.
-/

namespace CounterTrace

/-- A cause, within zero or more contexts. -/
inductive Failure where
  | cause (message : String)
  | within (context : String) (inner : Failure)
  deriving DecidableEq, Repr, Inhabited

namespace Failure

/-- All messages, outermost first. -/
def messages : Failure → List String
  | cause m => [m]
  | within c f => c :: f.messages

def line (f : Failure) : String := ": ".intercalate f.messages

/-- A message below a heading: its first line after `lead`, every later one after `pad`. -/
def indented (lead pad message : String) : String :=
  lead ++ ("\n" ++ pad).intercalate (message.splitOn "\n")

/-- A number at the right end of five columns. -/
def column (n : Nat) : String :=
  let digits := toString n
  String.ofList (List.replicate (5 - digits.length) ' ') ++ digits

/-- The causes below the outermost message, numbered if there are several. -/
def causeLines : List String → List String
  | [] => []
  | [m] => [indented "    " "    " m]
  | ms => ms.zipIdx.map fun (m, i) => indented (column i ++ ": ") "       " m

/-- The report that ends a failed run. -/
def report (f : Failure) : String :=
  match f.messages with
  | [] => "Error: \n"
  | [m] => s!"Error: {m}\n"
  | m :: causes =>
    s!"Error: {m}\n\nCaused by:\n" ++ "\n".intercalate (causeLines causes) ++ "\n"

theorem messages_ne_nil (f : Failure) : f.messages ≠ [] := by
  cases f <;> simp [messages]

end Failure

/-- Turns a reason into a failure within a context. -/
def refusedWithin (context : String) : Except String α → Except Failure α
  | .ok a => .ok a
  | .error why => .error (.within context (.cause why))

/-- Puts a failing outcome into a context and leaves a good one alone. -/
def addContext (context : String) : Except Failure α → Except Failure α
  | .ok a => .ok a
  | .error f => .error (.within context f)

end CounterTrace
