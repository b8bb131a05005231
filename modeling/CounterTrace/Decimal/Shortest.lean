/-!
# Shortest decimals

The shortest decimal of a floating-point number has the fewest digits among those that lie closer
to it than to any other floating-point number, and of those with so few digits it is the nearest.
It is found exactly: the number is `m · 2 ^ q`, its neighbourhood is an interval with rational
ends, and the decimal grids `10 ^ k` are tried from coarse to fine until one has a point inside.
-/

namespace CounterTrace.Decimal

/-- The leading bit of a significand, which the fraction field leaves out. -/
def hiddenBit : Nat := 0x10000000000000

def signBit : Nat := 0x8000000000000000

/-- Numbers that round to a given positive one: everything from `low` to `high`, in units of
`2 ^ exponent`, with `mid` the number itself.  The ends belong to it if `closed` is set. -/
structure Neighbourhood where
  low : Nat
  mid : Nat
  high : Nat
  exponent : Int
  closed : Bool
  deriving Repr

/-- The neighbourhood of the finite number with this fraction field and this exponent field. -/
def Neighbourhood.ofFields (fraction exponent : Nat) : Neighbourhood :=
  let m := if exponent = 0 then fraction else fraction + hiddenBit
  let q : Int := (if exponent = 0 then 1 else exponent : Nat) - 1075
  { low := if fraction = 0 ∧ 1 < exponent then 4 * m - 1 else 4 * m - 2
    mid := 4 * m
    high := 4 * m + 2
    exponent := q - 2
    closed := m % 2 = 0 }

/-- A factor `b ^ e` as a numerator or a denominator. -/
def power (b : Nat) (e : Int) : Nat × Nat :=
  if 0 ≤ e then (b.pow e.toNat, 1) else (1, b.pow (-e).toNat)

/-- The point of the grid `10 ^ k` inside the neighbourhood that is nearest to the number. -/
def Neighbourhood.onGrid? (n : Neighbourhood) (k : Int) : Option Nat :=
  let (a, b) := power 2 n.exponent
  let (c, d) := power 10 k
  -- A point `p` stands for `p * unit` where the number stands for `n.mid * scale`.
  let scale := a * d
  let unit := b * c
  let inside (p : Nat) : Bool :=
    if n.closed then n.low * scale ≤ p * unit && p * unit ≤ n.high * scale
    else n.low * scale < p * unit && p * unit < n.high * scale
  let below := n.mid * scale / unit
  let nearBelow := 2 * (n.mid * scale - below * unit) ≤ unit
  match inside below && 0 < below, inside (below + 1) with
  | true, true => some (if nearBelow then below else below + 1)
  | true, false => some below
  | false, true => some (below + 1)
  | false, false => none

/-- Tries the grids `10 ^ k`, `10 ^ (k - 1)`, … -/
def Neighbourhood.search (n : Neighbourhood) : Nat → Int → Nat × Int
  | 0, k => (0, k)
  | fuel + 1, k =>
    match n.onGrid? k with
    | some p => (p, k)
    | none => n.search fuel (k - 1)

/-- The digits `p` and the exponent `k` of the shortest decimal `p · 10 ^ k`.  No number needs a
grid coarser than its own digits before the point, or finer than 10 ^ -324. -/
def Neighbourhood.shortest (n : Neighbourhood) : Nat × Int :=
  let (a, b) := power 2 n.exponent
  let coarsest := (Nat.toDigits 10 (n.mid * a / b)).length
  n.search (coarsest + 330) coarsest

/-- Writes `p · 10 ^ k` without an exponent. -/
def positional (p : Nat) (k : Int) : List Char :=
  let digits := Nat.toDigits 10 p
  if 0 ≤ k then digits ++ List.replicate k.toNat '0'
  else
    let places := (-k).toNat
    let padded := List.replicate (places + 1 - digits.length) '0' ++ digits
    padded.take (padded.length - places) ++ '.' :: padded.drop (padded.length - places)

/-- A floating-point number as its shortest decimal, without an exponent. -/
def ofFloat (x : Float) : String :=
  let bits := x.toBits.toNat
  let fraction := bits % hiddenBit
  let exponent := bits / hiddenBit % 2048
  let sign := if bits < signBit then [] else ['-']
  if exponent = 2047 then
    if fraction = 0 then String.ofList (sign ++ ['i', 'n', 'f']) else "NaN"
  else if fraction = 0 ∧ exponent = 0 then String.ofList (sign ++ ['0'])
  else
    let (p, k) := (Neighbourhood.ofFields fraction exponent).shortest
    String.ofList (sign ++ positional p k)

end CounterTrace.Decimal
