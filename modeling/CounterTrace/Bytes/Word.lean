/-!
# Words as bytes

Fixed-width words in both byte orders, written to byte lists and taken from their fronts.

    takeLE32 (le32 w ++ rest) = some (w, rest)        (takeLE32_append)
    takeLE64 (le64 w ++ rest) = some (w, rest)        (takeLE64_append)
    takeBE32 (be32 w ++ rest) = some (w, rest)        (takeBE32_append)

Any four bytes are a word in either order (`exists_be32`, `exists_le32`).
-/

namespace CounterTrace.Bytes

/-! ## Writing -/

/-- The byte of a number at a place, place 0 being the lowest. -/
def byteAt (n place : Nat) : UInt8 := UInt8.ofNat (n >>> (8 * place))

def le32 (w : UInt32) : List UInt8 :=
  [byteAt w.toNat 0, byteAt w.toNat 1, byteAt w.toNat 2, byteAt w.toNat 3]

def le64 (w : UInt64) : List UInt8 :=
  le32 (UInt32.ofNat w.toNat) ++ le32 (UInt32.ofNat (w.toNat / UInt32.size))

def be32 (w : UInt32) : List UInt8 :=
  [byteAt w.toNat 3, byteAt w.toNat 2, byteAt w.toNat 1, byteAt w.toNat 0]

/-! ## Reading -/

/-- The word with these four bytes, highest first. -/
def word (b3 b2 b1 b0 : UInt8) : UInt32 :=
  UInt32.ofNat (((b3.toNat * 256 + b2.toNat) * 256 + b1.toNat) * 256 + b0.toNat)

def takeLE32 : List UInt8 → Option (UInt32 × List UInt8)
  | b0 :: b1 :: b2 :: b3 :: rest => some (word b3 b2 b1 b0, rest)
  | _ => none

def takeLE64 (bs : List UInt8) : Option (UInt64 × List UInt8) := do
  let (lo, bs) ← takeLE32 bs
  let (hi, bs) ← takeLE32 bs
  some (UInt64.ofNat (hi.toNat * UInt32.size + lo.toNat), bs)

def takeBE32 : List UInt8 → Option (UInt32 × List UInt8)
  | b3 :: b2 :: b1 :: b0 :: rest => some (word b3 b2 b1 b0, rest)
  | _ => none

/-- Takes as many words as asked, one after the other. -/
def takeWords (take : List UInt8 → Option (UInt32 × List UInt8)) :
    Nat → List UInt8 → Option (List UInt32 × List UInt8)
  | 0, bs => some ([], bs)
  | n + 1, bs => do
    let (w, bs) ← take bs
    let (ws, bs) ← takeWords take n bs
    some (w :: ws, bs)

/-! ## Lemmas -/

@[simp]
theorem length_le32 (w : UInt32) : (le32 w).length = 4 := rfl

@[simp]
theorem length_le64 (w : UInt64) : (le64 w).length = 8 := rfl

@[simp]
theorem length_be32 (w : UInt32) : (be32 w).length = 4 := rfl

theorem word_byteAt (w : UInt32) :
    word (byteAt w.toNat 3) (byteAt w.toNat 2) (byteAt w.toNat 1) (byteAt w.toNat 0) = w := by
  have h := w.toNat_lt
  apply UInt32.toNat_inj.1
  simp only [word, byteAt, UInt32.toNat_ofNat', UInt8.toNat_ofNat']
  omega

theorem be32_word (b3 b2 b1 b0 : UInt8) : be32 (word b3 b2 b1 b0) = [b3, b2, b1, b0] := by
  have h3 := b3.toNat_lt
  have h2 := b2.toNat_lt
  have h1 := b1.toNat_lt
  have h0 := b0.toNat_lt
  simp only [be32, List.cons.injEq, and_true]
  refine ⟨?_, ?_, ?_, ?_⟩ <;>
    · apply UInt8.toNat_inj.1
      simp only [word, byteAt, UInt32.toNat_ofNat', UInt8.toNat_ofNat']
      omega

/-- Any four bytes are a word, highest byte first. -/
theorem exists_be32 {bs : List UInt8} (h : bs.length = 4) : ∃ w, be32 w = bs := by
  match bs, h with
  | [b3, b2, b1, b0], _ => exact ⟨_, be32_word b3 b2 b1 b0⟩

/-- Any four bytes are a word, lowest byte first. -/
theorem exists_le32 {bs : List UInt8} (h : bs.length = 4) : ∃ w, le32 w = bs := by
  have hreverse : bs.reverse.length = 4 := by rw [List.length_reverse, h]
  obtain ⟨w, hw⟩ := exists_be32 hreverse
  exact ⟨w, (List.reverse_eq_iff.1 hw.symm).symm⟩

/-- Any eight bytes are a word, lowest byte first. -/
theorem exists_le64 {bs : List UInt8} (h : bs.length = 8) : ∃ w, le64 w = bs := by
  have hfront : (bs.take 4).length = 4 := by rw [List.length_take, h]; rfl
  have hback : (bs.drop 4).length = 4 := by rw [List.length_drop, h]
  obtain ⟨lo, hlo⟩ := exists_le32 hfront
  obtain ⟨hi, hhi⟩ := exists_le32 hback
  have hloLt := lo.toNat_lt
  have hhiLt := hi.toNat_lt
  have hw : (UInt64.ofNat (hi.toNat * UInt32.size + lo.toNat)).toNat =
      hi.toNat * UInt32.size + lo.toNat :=
    UInt64.toNat_ofNat_of_lt' (by rw [UInt32.size, UInt64.size]; omega)
  have hlow : UInt32.ofNat (hi.toNat * UInt32.size + lo.toNat) = lo := by
    apply UInt32.toNat_inj.1
    rw [UInt32.toNat_ofNat', UInt32.size]
    omega
  have hhigh : (hi.toNat * UInt32.size + lo.toNat) / UInt32.size = hi.toNat := by
    rw [UInt32.size]
    omega
  refine ⟨UInt64.ofNat (hi.toNat * UInt32.size + lo.toNat), ?_⟩
  rw [le64, hw, hlow, hhigh, UInt32.ofNat_toNat, hlo, hhi, List.take_append_drop]

theorem takeLE32_append (w : UInt32) (rest : List UInt8) :
    takeLE32 (le32 w ++ rest) = some (w, rest) := by
  simp [le32, takeLE32, word_byteAt]

theorem takeBE32_append (w : UInt32) (rest : List UInt8) :
    takeBE32 (be32 w ++ rest) = some (w, rest) := by
  simp [be32, takeBE32, word_byteAt]

theorem takeLE64_append (w : UInt64) (rest : List UInt8) :
    takeLE64 (le64 w ++ rest) = some (w, rest) := by
  have h := w.toNat_lt
  simp only [takeLE64, le64, List.append_assoc, takeLE32_append, Option.bind_eq_bind,
    Option.bind_some, Option.some.injEq, Prod.mk.injEq, and_true]
  apply UInt64.toNat_inj.1
  simp only [UInt64.toNat_ofNat', UInt32.toNat_ofNat', UInt32.size]
  omega

/-- Words that are written one after the other are taken one after the other, if one word is. -/
theorem takeWords_append {take : List UInt8 → Option (UInt32 × List UInt8)}
    {put : UInt32 → List UInt8} (h : ∀ w rest, take (put w ++ rest) = some (w, rest))
    (ws : List UInt32) (rest : List UInt8) :
    takeWords take ws.length (ws.flatMap put ++ rest) = some (ws, rest) := by
  induction ws with
  | nil => rfl
  | cons w ws ih =>
    simp only [List.length_cons, takeWords, List.flatMap_cons, List.append_assoc, h,
      Option.bind_eq_bind, Option.bind_some, ih]

/-- Bytes that come in pieces of a size are items, if any piece of that size is an item. -/
theorem exists_items {α : Type} {put : α → List UInt8} {size : Nat}
    (h : ∀ {bs : List UInt8}, bs.length = size → ∃ a, put a = bs) {n : Nat} {bs : List UInt8}
    (hlength : bs.length = n * size) :
    ∃ items : List α, items.length = n ∧ items.flatMap put = bs := by
  induction n generalizing bs with
  | zero => exact ⟨[], rfl, (List.eq_nil_of_length_eq_zero (by omega)).symm⟩
  | succ n ih =>
    rw [Nat.succ_mul] at hlength
    have hfront : (bs.take size).length = size := by rw [List.length_take]; omega
    have hback : (bs.drop size).length = n * size := by rw [List.length_drop]; omega
    obtain ⟨a, ha⟩ := h hfront
    obtain ⟨items, hn, hitems⟩ := ih hback
    refine ⟨a :: items, by rw [List.length_cons, hn], ?_⟩
    rw [List.flatMap_cons, ha, hitems, List.take_append_drop]

end CounterTrace.Bytes
