/-!
# UTF-8

Text travels as bytes.  Reading follows the table of well-formed sequences: a lead byte fixes how
many bytes follow and the range of the first of them, all later ones lie in 80..BF.  A broken
sequence is the longest front part that could still have become a character; lenient reading puts
one replacement character in its place, strict reading refuses the whole text.

    scan (encode s)   one `some c` for each character `c` of `s`
-/

namespace CounterTrace.Utf8

/-! ## Algorithm -/

def encode (s : String) : List UInt8 := s.toList.flatMap String.utf8EncodeChar

/-- For a lead byte: the number of bytes that follow, the range of the first of them and the bits
that the lead byte itself gives. -/
def sequence? (b : UInt8) : Option (Nat × UInt8 × UInt8 × Nat) :=
  if 0xC2 ≤ b && b ≤ 0xDF then some (1, 0x80, 0xBF, b.toNat - 0xC0)
  else if b == 0xE0 then some (2, 0xA0, 0xBF, 0)
  else if b == 0xED then some (2, 0x80, 0x9F, 0xD)
  else if 0xE1 ≤ b && b ≤ 0xEF then some (2, 0x80, 0xBF, b.toNat - 0xE0)
  else if b == 0xF0 then some (3, 0x90, 0xBF, 0)
  else if 0xF1 ≤ b && b ≤ 0xF3 then some (3, 0x80, 0xBF, b.toNat - 0xF0)
  else if b == 0xF4 then some (3, 0x80, 0x8F, 4)
  else none

/-- Collects the `n` bytes of a sequence that are still to come, the next of them in `lo..hi`, onto
the bits `acc`.  Stops in front of the first byte that does not fit. -/
def follow : Nat → UInt8 → UInt8 → Nat → List UInt8 → Option Nat × List UInt8
  | 0, _, _, acc, rest => (some acc, rest)
  | _ + 1, _, _, _, [] => (none, [])
  | n + 1, lo, hi, acc, b :: rest =>
    if lo ≤ b && b ≤ hi then follow n 0x80 0xBF (acc * 64 + (b.toNat - 0x80)) rest
    else (none, b :: rest)

theorem follow_length_le (n : Nat) (lo hi : UInt8) (acc : Nat) (bs : List UInt8) :
    (follow n lo hi acc bs).2.length ≤ bs.length := by
  induction n generalizing lo hi acc bs with
  | zero => simp [follow]
  | succ n ih =>
    cases bs with
    | nil => simp [follow]
    | cons b rest =>
      simp only [follow]
      split
      · exact Nat.le_succ_of_le (ih ..)
      · simp

/-- The character, or the broken sequence, that starts with byte `b`, and what comes after it. -/
def step (b : UInt8) (rest : List UInt8) : Option Char × List UInt8 :=
  if b < 0x80 then (some (Char.ofNat b.toNat), rest)
  else
    match sequence? b with
    | none => (none, rest)
    | some (n, lo, hi, bits) =>
      match follow n lo hi bits rest with
      | (some code, rest) => (some (Char.ofNat code), rest)
      | (none, rest) => (none, rest)

theorem step_length_le (b : UInt8) (rest : List UInt8) : (step b rest).2.length ≤ rest.length := by
  unfold step
  split
  · exact Nat.le_refl _
  · split
    · exact Nat.le_refl _
    · next n lo hi bits _ =>
      have h := follow_length_le n lo hi bits rest
      split <;> simp_all

/-- The characters of a byte string, `none` for each broken sequence. -/
def scan : List UInt8 → List (Option Char)
  | [] => []
  | b :: rest => (step b rest).1 :: scan (step b rest).2
termination_by bs => bs.length
decreasing_by exact Nat.lt_succ_of_le (step_length_le b rest)

/-- The character that stands for a broken sequence. -/
def replacement : Char := Char.ofNat 0xFFFD

/-- Lenient reading: every byte string is a text. -/
def decodeLenient (bs : List UInt8) : String :=
  String.ofList ((scan bs).map (·.getD replacement))

/-- Strict reading: a text only if no sequence is broken. -/
def decode? (bs : List UInt8) : Option String :=
  ((scan bs).mapM id).map String.ofList

/-! ## Lemmas -/

theorem encode_empty : encode "" = [] := by simp [encode]

theorem encode_append (s t : String) : encode (s ++ t) = encode s ++ encode t := by
  simp [encode]

theorem scan_nil : scan [] = [] := by rw [scan]

theorem scan_cons (b : UInt8) (rest : List UInt8) :
    scan (b :: rest) = (step b rest).1 :: scan (step b rest).2 := by rw [scan]

end CounterTrace.Utf8
