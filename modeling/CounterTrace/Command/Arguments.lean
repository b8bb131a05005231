import CounterTrace.Text.Lines
import CounterTrace.Text.Numeral

/-!
# Arguments

The arguments of a command are options, each with a value, and operands between and behind them.

    --name VALUE   --name=VALUE   -n VALUE   -nVALUE   -n=VALUE

A value that is an argument of its own does not begin with a dash, unless it is a dash alone.
Behind `--` everything is an operand.  An option that may not be repeated is there at most once.
-/

namespace CounterTrace

/-- What the value of an option or an operand has to be. -/
inductive ArgumentKind where
  | text
  | path
  /-- A number below a limit. -/
  | number (limit : Nat)
  /-- Numbers below a limit, with commas between them. -/
  | numbers (limit : Nat)
  | choice (names : List String)
  deriving DecidableEq, Repr

/-- An option of a command. -/
structure OptionRule where
  name : String
  short : Option Char := none
  kind : ArgumentKind
  repeats : Bool := false
  deriving Repr

/-- The arguments of a command. -/
structure ArgumentRules where
  options : List OptionRule
  /-- Number of operands that there may be. -/
  operands : Nat := 0

/-- Why a command is not carried out. -/
inductive Usage where
  /-- It was asked how to use it. -/
  | help
  | mistake
  deriving DecidableEq, Repr

/-- Options by name, and operands, in the order in which they came. -/
structure Arguments where
  options : List (String × String) := []
  operands : List String := []
  deriving Repr

namespace ArgumentKind

/-- A number below a limit. -/
def number? (limit : Nat) (cs : List Char) : Option Nat :=
  (Text.Numeral.read 10 limit cs).toOption

def accepts (value : String) : ArgumentKind → Bool
  | text => true
  | path => !value.isEmpty
  | number limit => (number? limit value.toList).isSome
  | numbers limit => (Text.splitOn ',' value.toList).all fun cs => (number? limit cs).isSome
  | choice names => names.contains value

end ArgumentKind

namespace Arguments

/-! ## Looking up -/

def get? (a : Arguments) (name : String) : Option String := a.options.lookup name

def has (a : Arguments) (name : String) : Bool := (a.get? name).isSome

def all (a : Arguments) (name : String) : List String :=
  (a.options.filter (·.1 == name)).map (·.2)

def number? (a : Arguments) (name : String) : Option Nat :=
  (a.get? name).bind fun v => ArgumentKind.number? UInt64.size v.toList

def numbers (a : Arguments) (name : String) : List Nat :=
  (a.all name).flatMap fun v =>
    (Text.splitOn ',' v.toList).filterMap (ArgumentKind.number? UInt64.size)

/-! ## Reading -/

/-- What an argument is. -/
inductive Shape where
  /-- The mark behind which there are operands only. -/
  | operandsOnly
  /-- An option, by its name or its letter, with its value if that is attached. -/
  | long (name : String) (value : Option String)
  | short (letter : Char) (value : Option String)
  | operand
  deriving DecidableEq, Repr

def shape (arg : String) : Shape :=
  match arg.toList with
  | ['-', '-'] => .operandsOnly
  | '-' :: '-' :: cs =>
    match Text.splitOnce '=' cs with
    | some (name, value) => .long (String.ofList name) (some (String.ofList value))
    | none => .long (String.ofList cs) none
  | '-' :: c :: cs =>
    match cs with
    | [] => .short c none
    | '=' :: value => .short c (some (String.ofList value))
    | value => .short c (some (String.ofList value))
  | _ => .operand

def addOption (rule : OptionRule) (a : Arguments) (value : String) : Except Usage Arguments :=
  if !rule.kind.accepts value || (a.has rule.name && !rule.repeats) then .error .mistake
  else .ok { a with options := a.options ++ [(rule.name, value)] }

def addOperand (rules : ArgumentRules) (a : Arguments) (value : String) :
    Except Usage Arguments :=
  if value.isEmpty || rules.operands ≤ a.operands.length then .error .mistake
  else .ok { a with operands := a.operands ++ [value] }

/-- The rule of an option, or a request for help. -/
def ruleOf (rules : ArgumentRules) : Shape → Except Usage OptionRule
  | .long name value =>
    match rules.options.find? (·.name == name) with
    | some rule => .ok rule
    | none => .error (if name == "help" && value.isNone then .help else .mistake)
  | .short letter _ =>
    match rules.options.find? (·.short == some letter) with
    | some rule => .ok rule
    | none => .error (if letter == 'h' then .help else .mistake)
  | _ => .error .mistake

/-- The value that is attached to an option. -/
def attached : Shape → Option String
  | .long _ value => value
  | .short _ value => value
  | _ => none

/-- Reads arguments up to the first operand that `stop` wants to see.  Gives that operand and
what comes behind it. -/
def readUntil (stop : Bool) (rules : ArgumentRules) :
    List String → Arguments → Except Usage (Arguments × List String)
  | [], a => .ok (a, [])
  | arg :: rest, a =>
    match shape arg with
    | .operandsOnly =>
      (rest.foldlM (addOperand rules) a).map fun a => (a, [])
    | .operand =>
      if stop then .ok (a, arg :: rest)
      else
        match addOperand rules a arg with
        | .error u => .error u
        | .ok a => readUntil stop rules rest a
    | s =>
      match ruleOf rules s with
      | .error u => .error u
      | .ok rule =>
        match attached s with
        | some value =>
          match addOption rule a value with
          | .error u => .error u
          | .ok a => readUntil stop rules rest a
        | none =>
          match rest with
          | [] => .error .mistake
          | value :: rest =>
            if shape value != .operand then .error .mistake
            else
              match addOption rule a value with
              | .error u => .error u
              | .ok a => readUntil stop rules rest a

def read (rules : ArgumentRules) (args : List String) : Except Usage Arguments :=
  (readUntil false rules args {}).map (·.1)

end Arguments

end CounterTrace
