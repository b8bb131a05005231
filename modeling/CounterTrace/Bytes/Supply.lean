/-!
# Byte supplies

A supply hands out bytes in pieces of its own choosing and then either ends or fails, for good.
Whoever needs a fixed number of bytes reads on until it has them.

    gather n pieces = the first n bytes of pieces.flatten, and the pieces that are left
                                                                     (gather_flatten)
-/

namespace CounterTrace.Bytes

/-- Pieces still to come and the failure, if any, that follows them. -/
structure Supply where
  pieces : List (List UInt8)
  failure : Option String := none
  deriving DecidableEq, Repr

/-- What came of asking for a fixed number of bytes. -/
inductive Fill where
  | filled (bytes : List UInt8)
  | ended
  | failed (message : String)
  deriving DecidableEq, Repr

/-- Takes up to `n` bytes off the front of the pieces. -/
def gather : Nat → List (List UInt8) → List UInt8 × List (List UInt8)
  | _, [] => ([], [])
  | n, p :: ps =>
    if n < p.length then (p.take n, p.drop n :: ps)
    else (p ++ (gather (n - p.length) ps).1, (gather (n - p.length) ps).2)

/-- Cuts a byte list into pieces of `size` bytes, the last one possibly shorter. -/
def chop (size : Nat) (bytes : List UInt8) : List (List UInt8) :=
  match bytes with
  | [] => []
  | b :: rest => (b :: rest.take (size - 1)) :: chop size (rest.drop (size - 1))
termination_by bytes.length
decreasing_by
  simp only [List.length_drop, List.length_cons]
  omega

namespace Supply

def bytes (s : Supply) : List UInt8 := s.pieces.flatten

/-- Asks for exactly `n` bytes.  A supply that ends or fails first gives up the bytes before. -/
def fill (n : Nat) (s : Supply) : Fill × Supply :=
  let (got, rest) := gather n s.pieces
  if got.length = n then (.filled got, { s with pieces := rest })
  else
    match s.failure with
    | none => (.ended, { s with pieces := rest })
    | some m => (.failed m, { s with pieces := rest })

/-- A supply of the given bytes: in pieces of at most `size` bytes, or in one piece; failing with
`message` once `limit` bytes were handed out, if there is such a limit. -/
def ofBytes (bytes : List UInt8) (size limit : Option Nat) (message : String) : Supply :=
  let cut (bs : List UInt8) : List (List UInt8) :=
    match size with
    | some n => chop n bs
    | none => if bs.isEmpty then [] else [bs]
  match limit with
  | some n => if n ≤ bytes.length then ⟨cut (bytes.take n), some message⟩ else ⟨cut bytes, none⟩
  | none => ⟨cut bytes, none⟩

end Supply

/-! ## Lemmas -/

theorem gather_flatten (n : Nat) (ps : List (List UInt8)) :
    (gather n ps).1 = ps.flatten.take n ∧ (gather n ps).2.flatten = ps.flatten.drop n := by
  induction ps generalizing n with
  | nil => simp [gather]
  | cons p ps ih =>
    simp only [gather]
    split
    · next h =>
      have h0 : n - p.length = 0 := by omega
      simp [List.take_append, List.drop_append, h0]
    · next h =>
      have hp : p.length ≤ n := by omega
      simp [List.take_append, List.drop_append, ih, List.take_of_length_le hp,
        List.drop_of_length_le hp]

theorem Supply.fill_filled_length {n : Nat} {s rest : Supply} {bytes : List UInt8}
    (h : s.fill n = (.filled bytes, rest)) : rest.bytes.length + n = s.bytes.length := by
  have hg := gather_flatten n s.pieces
  simp only [Supply.fill] at h
  split at h
  · next hl =>
    simp only [Prod.mk.injEq] at h
    rw [← h.2]
    simp only [Supply.bytes, hg.2, List.length_drop]
    rw [hg.1, List.length_take] at hl
    omega
  · split at h <;> simp at h

theorem flatten_chop (size : Nat) (bytes : List UInt8) : (chop size bytes).flatten = bytes := by
  fun_induction chop size bytes with
  | case1 => rfl
  | case2 b rest ih => simp [ih]

/-- Records of one size are cut apart again. -/
theorem chop_flatten {size : Nat} {records : List (List UInt8)} (hsize : 0 < size)
    (h : ∀ record ∈ records, record.length = size) : chop size records.flatten = records := by
  induction records with
  | nil => rw [List.flatten_nil, chop]
  | cons record records ih =>
    have hrecord := h record List.mem_cons_self
    have hrecords := ih fun other hother => h other (List.mem_cons_of_mem _ hother)
    cases record with
    | nil =>
      rw [List.length_nil] at hrecord
      omega
    | cons b rest =>
      have hrest : rest.length = size - 1 := by
        rw [List.length_cons] at hrecord
        omega
      rw [List.flatten_cons, List.cons_append, chop, List.take_left' hrest, List.drop_left' hrest,
        hrecords]

end CounterTrace.Bytes
