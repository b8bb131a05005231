import CounterTrace.Text.Numeral

/-!
# Values

A value is what a settings document holds: the values of JSON, and the plain scalars of YAML, which
are texts, numbers or nothing at all as the place demands.

    v.text?          every text, and every plain scalar as it stands
    v.number? n      numbers below n, also those that a plain scalar spells
    v.record? f ks   the fields among `ks`, none of them twice
-/

namespace CounterTrace

/-- The two kinds of settings documents. -/
inductive DocumentFormat where
  | json
  | yaml
  deriving DecidableEq, Repr

/-- A value of a settings document. -/
inductive Value where
  | null
  | bool (b : Bool)
  | integer (n : Int)
  | fraction
  /-- A text and nothing else. -/
  | text (s : String)
  /-- A scalar without quotes. -/
  | plain (s : String)
  /-- A value marked with a name of its own. -/
  | tagged (name : String) (v : Value)
  | list (items : List Value)
  | table (entries : List (Value × Value))
  deriving Repr, Inhabited

namespace Value

/-- The value without marks. -/
def bare : Value → Value
  | tagged _ v => v.bare
  | v => v

/-- Whether the value is a plain scalar without a character, which stands for whatever is empty. -/
def isVoid (v : Value) : Bool :=
  match v.bare with
  | plain s => s.isEmpty
  | _ => false

def text? (v : Value) : Option String :=
  match v.bare with
  | text s => some s
  | plain s => some s
  | _ => none

/-! ## Numbers -/

/-- A numeral without a sign of its own. -/
def unsigned? (base limit : Nat) : List Char → Option Nat
  | '+' :: _ => none
  | cs => (Text.Numeral.read base limit cs).toOption

/-- Whether a numeral has a needless zero in front, which makes it a text. -/
def hasLeadingZero : List Char → Bool
  | '0' :: c :: cs => (c :: cs).all Char.isDigit
  | _ => false

/-- The number that a plain scalar spells: after at most one plus sign a decimal numeral without
needless zeros, or one of base 16, 8 or 2 behind its mark. -/
def spelled? (limit : Nat) (cs : List Char) : Option Nat :=
  let digits :=
    match cs with
    | '+' :: rest => rest
    | _ => cs
  match digits with
  | '0' :: 'x' :: rest => unsigned? 16 limit rest
  | '0' :: 'o' :: rest => unsigned? 8 limit rest
  | '0' :: 'b' :: rest => unsigned? 2 limit rest
  | _ => if hasLeadingZero digits then none else unsigned? 10 limit digits

def number? (limit : Nat) (v : Value) : Option Nat :=
  match v.bare with
  | integer n => if 0 ≤ n && n.toNat < limit then some n.toNat else none
  | plain s => spelled? limit s.toList
  | _ => none

def word32? (v : Value) : Option UInt32 := (v.number? UInt32.size).map UInt32.ofNat

def word64? (v : Value) : Option Nat := v.number? UInt64.size

/-! ## Compound values -/

/-- A list of values that are all read alike. -/
def list? {α : Type} (read : Value → Option α) (v : Value) : Option (List α) :=
  match v.bare with
  | list items => items.mapM read
  | _ => if v.isVoid then some [] else none

/-- The name that a value chooses: by itself, by its mark, or as the only key of a table. -/
def choice? (f : DocumentFormat) (v : Value) : Option String :=
  match f, v with
  | .yaml, tagged name v =>
    match v with
    | plain s => if s.isEmpty || ["null", "Null", "NULL", "~"].contains s then some name else none
    | _ => none
  | .yaml, v => v.text?
  | .json, text s => some s
  | .json, table [(key, null)] => key.text?
  | .json, _ => none

/-- Fields by name. -/
abbrev Record := List (String × Value)

/-- Whether no field is there twice. -/
def Record.distinct : Record → Bool
  | [] => true
  | (k, _) :: rest => (rest.lookup k).isNone && distinct rest

/-- The fields of a table that have one of the given names.  In JSON they may also be a list, in
the order of their names; in YAML there may be nothing instead. -/
def record? (f : DocumentFormat) (names : List String) (v : Value) : Option Record :=
  match f, v.bare with
  | _, table entries => do
    let fields ← entries.mapM fun (k, v) => k.text?.map fun k => (k, v)
    let known := fields.filter fun (k, _) => names.contains k
    if Record.distinct known then some known else none
  | .json, list items => if items.length ≤ names.length then some (names.zip items) else none
  | _, _ => if v.isVoid then some [] else none

/-- Reads a field, if it is there. -/
def Record.field {α : Type} (r : Record) (name : String) (read : Value → Option α) (default : α) :
    Option α :=
  match r.lookup name with
  | none => some default
  | some v => read v

end Value

end CounterTrace
