import Mathlib.Data.List.Basic
import CounterTrace.Text.Utf8

/-!
# Reading what was written

The table of well-formed sequences, by the number of bytes: `Spells bs n` if `bs` are the bytes of
the code point `n`.  Writing a character gives its bytes and reading takes them off the front, so
that reading undoes writing, and strict reading accepts nothing but what writing gives.

    step b bs = (some c, rest) ↔ b :: bs = utf8EncodeChar c ++ rest            (step_eq_some_iff)
    decodeLenient (encode s) = s                                          (decodeLenient_encode)
    decode? bs = some s ↔ encode s = bs                                   (decode?_eq_some_iff)

A zero byte stands for NUL and for nothing else: without its zero bytes a text is the text without
its NULs (`filter_encode`), and bytes without a zero are read as a text without a NUL, broken or not
(`nul_not_mem_decodeLenient`).
-/

namespace CounterTrace.Utf8

/-! ## Code points -/

/-- The bytes of a code point, by their number. -/
inductive Spells : List UInt8 → Nat → Prop where
  | one {x : Nat} (hx : x < 0x80) : Spells [UInt8.ofNat x] x
  | two {x y : Nat} (hx : 2 ≤ x ∧ x < 32) (hy : y < 64) :
    Spells [UInt8.ofNat (x + 0xC0), UInt8.ofNat (y + 0x80)] (x * 64 + y)
  | three {x y z : Nat} (hx : x < 16) (hy : y < 64) (hz : z < 64) (hlow : x = 0 → 32 ≤ y)
    (hsurrogate : x = 13 → y < 32) :
    Spells [UInt8.ofNat (x + 0xE0), UInt8.ofNat (y + 0x80), UInt8.ofNat (z + 0x80)]
      ((x * 64 + y) * 64 + z)
  | four {w x y z : Nat} (hw : w < 5) (hx : x < 64) (hy : y < 64) (hz : z < 64)
    (hlow : w = 0 → 16 ≤ x) (hhigh : w = 4 → x < 16) :
    Spells [UInt8.ofNat (w + 0xF0), UInt8.ofNat (x + 0x80), UInt8.ofNat (y + 0x80),
      UInt8.ofNat (z + 0x80)] (((w * 64 + x) * 64 + y) * 64 + z)

theorem Spells.isValidChar {bs : List UInt8} {n : Nat} (h : Spells bs n) : n.isValidChar := by
  cases h with
  | one => exact .inl (by omega)
  | two => exact .inl (by omega)
  | three =>
    simp only [Nat.isValidChar]
    omega
  | four =>
    simp only [Nat.isValidChar]
    omega

/-- The bytes of a code point are those that its character is written with. -/
theorem Spells.encodeChar {bs : List UInt8} {n : Nat} (h : Spells bs n) :
    String.utf8EncodeChar (Char.ofNat n) = bs := by
  have hn : (Char.ofNat n).val.toNat = n := by
    rw [Char.ofNat, dif_pos h.isValidChar]
    rfl
  unfold String.utf8EncodeChar
  simp only [hn]
  cases h with
  | one hx => rw [if_pos (by omega)]
  | @two x y hx hy =>
    rw [if_neg (by omega), if_pos (by omega), show (x * 64 + y) / 64 % 32 = x by omega,
      show (x * 64 + y) % 64 = y by omega]
  | @three x y z hx hy hz hlow hsurrogate =>
    rw [if_neg (by omega), if_neg (by omega), if_pos (by omega),
      show ((x * 64 + y) * 64 + z) / 4096 % 16 = x by omega,
      show ((x * 64 + y) * 64 + z) / 64 % 64 = y by omega,
      show ((x * 64 + y) * 64 + z) % 64 = z by omega]
  | @four w x y z hw hx hy hz hlow hhigh =>
    rw [if_neg (by omega), if_neg (by omega), if_neg (by omega),
      show (((w * 64 + x) * 64 + y) * 64 + z) / 262144 % 8 = w by omega,
      show (((w * 64 + x) * 64 + y) * 64 + z) / 4096 % 64 = x by omega,
      show (((w * 64 + x) * 64 + y) * 64 + z) / 64 % 64 = y by omega,
      show (((w * 64 + x) * 64 + y) * 64 + z) % 64 = z by omega]

theorem spells_encodeChar (c : Char) : Spells (String.utf8EncodeChar c) c.toNat := by
  have hvalid : c.toNat < 0xD800 ∨ 0xDFFF < c.toNat ∧ c.toNat < 0x110000 := c.valid
  have hval : c.val.toNat = c.toNat := rfl
  unfold String.utf8EncodeChar
  simp only [hval]
  generalize c.toNat = v at hvalid
  split
  · exact .one (by omega)
  split
  · rw [show v / 64 % 32 = v / 64 by omega]
    have := Spells.two (x := v / 64) (y := v % 64) (by omega) (by omega)
    rwa [show v / 64 * 64 + v % 64 = v by omega] at this
  split
  · rw [show v / 4096 % 16 = v / 4096 by omega]
    have := Spells.three (x := v / 4096) (y := v / 64 % 64) (z := v % 64) (by omega) (by omega)
      (by omega) (by omega) (by omega)
    rwa [show (v / 4096 * 64 + v / 64 % 64) * 64 + v % 64 = v by omega] at this
  · rw [show v / 262144 % 8 = v / 262144 by omega]
    have := Spells.four (w := v / 262144) (x := v / 4096 % 64) (y := v / 64 % 64) (z := v % 64)
      (by omega) (by omega) (by omega) (by omega) (by omega) (by omega)
    rwa [show ((v / 262144 * 64 + v / 4096 % 64) * 64 + v / 64 % 64) * 64 + v % 64 = v by omega]
      at this

/-! ## Sequences -/

/-- A byte that lies in the range goes with the bits before it. -/
theorem follow_cons {n : Nat} {lo hi : UInt8} {x : Nat} (hlo : lo.toNat ≤ x + 0x80)
    (hhi : x + 0x80 ≤ hi.toNat) (acc : Nat) (bs : List UInt8) :
    follow (n + 1) lo hi acc (UInt8.ofNat (x + 0x80) :: bs) =
      follow n 0x80 0xBF (acc * 64 + x) bs := by
  have hx : (UInt8.ofNat (x + 0x80)).toNat = x + 0x80 :=
    UInt8.toNat_ofNat_of_lt' (Nat.lt_of_le_of_lt hhi hi.toNat_lt)
  have hfits : (decide (lo ≤ UInt8.ofNat (x + 0x80)) && decide (UInt8.ofNat (x + 0x80) ≤ hi)) =
      true := by
    simp only [Bool.and_eq_true, decide_eq_true_eq, UInt8.le_iff_toNat_le, hx]
    exact ⟨hlo, hhi⟩
  simp only [follow, hfits, if_true, hx, Nat.add_sub_cancel]

theorem follow_tail {n x : Nat} (hx : x < 64) (acc : Nat) (bs : List UInt8) :
    follow (n + 1) 0x80 0xBF acc (UInt8.ofNat (x + 0x80) :: bs) =
      follow n 0x80 0xBF (acc * 64 + x) bs :=
  follow_cons (Nat.le_add_left ..) (show x + 0x80 ≤ 0xBF by omega) acc bs

/-- Only bytes in the range go with the bits before them. -/
theorem follow_eq_some {n : Nat} {lo hi : UInt8} (hlo : 0x80 ≤ lo.toNat) {acc code : Nat}
    {bs rest : List UInt8} (h : follow (n + 1) lo hi acc bs = (some code, rest)) :
    ∃ x tail, lo.toNat ≤ x + 0x80 ∧ x + 0x80 ≤ hi.toNat ∧ bs = UInt8.ofNat (x + 0x80) :: tail ∧
      follow n 0x80 0xBF (acc * 64 + x) tail = (some code, rest) := by
  match bs, h with
  | b :: tail, h =>
    simp only [follow] at h
    split at h
    · next hb =>
      simp only [Bool.and_eq_true, decide_eq_true_eq, UInt8.le_iff_toNat_le] at hb
      refine ⟨b.toNat - 0x80, tail, by omega, by omega, ?_, h⟩
      rw [Nat.sub_add_cancel (by omega), UInt8.ofNat_toNat]
    · cases h

theorem follow_tail_eq_some {n acc code : Nat} {bs rest : List UInt8}
    (h : follow (n + 1) 0x80 0xBF acc bs = (some code, rest)) :
    ∃ x < 64, ∃ tail, bs = UInt8.ofNat (x + 0x80) :: tail ∧
      follow n 0x80 0xBF (acc * 64 + x) tail = (some code, rest) := by
  obtain ⟨x, tail, -, hx, hbs, htail⟩ := follow_eq_some (by decide) h
  have hx : x + 0x80 ≤ 0xBF := hx
  exact ⟨x, by omega, tail, hbs, htail⟩

theorem sequence?_two {x : Nat} (hx : 2 ≤ x ∧ x < 32) :
    sequence? (UInt8.ofNat (x + 0xC0)) = some (1, 0x80, 0xBF, x) := by
  have h : ∀ x < 32, x < 2 ∨ sequence? (UInt8.ofNat (x + 0xC0)) = some (1, 0x80, 0xBF, x) := by
    decide
  exact (h x hx.2).resolve_left (by omega)

theorem sequence?_three : ∀ x < 16, sequence? (UInt8.ofNat (x + 0xE0)) =
    some (2, if x = 0 then 0xA0 else 0x80, if x = 13 then 0x9F else 0xBF, x) := by
  decide

theorem sequence?_four : ∀ w < 5, sequence? (UInt8.ofNat (w + 0xF0)) =
    some (3, if w = 0 then 0x90 else 0x80, if w = 4 then 0x8F else 0xBF, w) := by
  decide

/-- There are no other lead bytes. -/
theorem sequence?_eq_some {b : UInt8} {r : Nat × UInt8 × UInt8 × Nat}
    (h : sequence? b = some r) :
    (∃ x, (2 ≤ x ∧ x < 32) ∧ b = UInt8.ofNat (x + 0xC0)) ∨
      (∃ x < 16, b = UInt8.ofNat (x + 0xE0)) ∨ ∃ w < 5, b = UInt8.ofNat (w + 0xF0) := by
  have hrange : 0xC2 ≤ b.toNat ∧ b.toNat ≤ 0xF4 := by
    simp only [sequence?, Bool.and_eq_true, decide_eq_true_eq, beq_iff_eq, UInt8.le_iff_toNat_le,
      ← UInt8.toNat_inj] at h
    repeat' split at h
    all_goals simp_all
    all_goals omega
  have hb : ∀ k ≤ b.toNat, b = UInt8.ofNat (b.toNat - k + k) := fun k hk => by
    rw [Nat.sub_add_cancel hk, UInt8.ofNat_toNat]
  by_cases h2 : b.toNat < 0xE0
  · exact .inl ⟨b.toNat - 0xC0, by omega, hb _ (by omega)⟩
  by_cases h3 : b.toNat < 0xF0
  · exact .inr (.inl ⟨b.toNat - 0xE0, by omega, hb _ (by omega)⟩)
  · exact .inr (.inr ⟨b.toNat - 0xF0, by omega, hb _ (by omega)⟩)

/-! ## Characters -/

theorem not_lt_of_lead {x k : Nat} (hk : 0x80 ≤ k) (hx : x + k < 256) :
    ¬UInt8.ofNat (x + k) < 0x80 := by
  rw [UInt8.lt_iff_toNat_lt, UInt8.toNat_ofNat_of_lt' hx]
  show ¬x + k < 0x80
  omega

/-- The bytes of a code point are read as its character, whatever follows. -/
theorem step_of_spells {b : UInt8} {bs : List UInt8} {n : Nat} (h : Spells (b :: bs) n)
    (rest : List UInt8) : step b (bs ++ rest) = (some (Char.ofNat n), rest) := by
  cases h with
  | one hx =>
    have hn : (UInt8.ofNat n).toNat = n := UInt8.toNat_ofNat_of_lt' (show n < 256 by omega)
    have hlt : UInt8.ofNat n < 0x80 := by
      rw [UInt8.lt_iff_toNat_lt, hn]
      exact hx
    rw [step, if_pos hlt, hn]
    rfl
  | @two x y hx hy =>
    rw [step, if_neg (not_lt_of_lead (by decide) (by omega)), sequence?_two hx]
    simp only [List.cons_append, List.nil_append, follow_tail hy]
    rfl
  | @three x y z hx hy hz hlow hsurrogate =>
    have hlo : (if x = 0 then 0xA0 else 0x80 : UInt8).toNat ≤ y + 0x80 := by
      split
      · exact show 0xA0 ≤ y + 0x80 by omega
      · exact Nat.le_add_left ..
    have hhi : y + 0x80 ≤ (if x = 13 then 0x9F else 0xBF : UInt8).toNat := by
      split
      · exact show y + 0x80 ≤ 0x9F by omega
      · exact show y + 0x80 ≤ 0xBF by omega
    rw [step, if_neg (not_lt_of_lead (by decide) (by omega)), sequence?_three x hx]
    simp only [List.cons_append, List.nil_append, follow_cons hlo hhi, follow_tail hz]
    rfl
  | @four w x y z hw hx hy hz hlow hhigh =>
    have hlo : (if w = 0 then 0x90 else 0x80 : UInt8).toNat ≤ x + 0x80 := by
      split
      · exact show 0x90 ≤ x + 0x80 by omega
      · exact Nat.le_add_left ..
    have hhi : x + 0x80 ≤ (if w = 4 then 0x8F else 0xBF : UInt8).toNat := by
      split
      · exact show x + 0x80 ≤ 0x8F by omega
      · exact show x + 0x80 ≤ 0xBF by omega
    rw [step, if_neg (not_lt_of_lead (by decide) (by omega)), sequence?_four w hw]
    simp only [List.cons_append, List.nil_append, follow_cons hlo hhi, follow_tail hy,
      follow_tail hz]
    rfl

/-- A character is read from the bytes of its code point and from no others. -/
theorem spells_of_step {b : UInt8} {c : Char} {bs rest : List UInt8}
    (h : step b bs = (some c, rest)) :
    ∃ tail n, bs = tail ++ rest ∧ Spells (b :: tail) n ∧ c = Char.ofNat n := by
  unfold step at h
  split at h
  · next hb =>
    cases h
    refine ⟨[], b.toNat, rfl, ?_, rfl⟩
    have := Spells.one (x := b.toNat) hb
    rwa [UInt8.ofNat_toNat] at this
  · split at h
    · cases h
    · next n lo hi bits hseq =>
      -- the lead byte fixes how many bytes follow, and the range of the first
      obtain ⟨x, hx, rfl⟩ | ⟨x, hx, rfl⟩ | ⟨w, hw, rfl⟩ := sequence?_eq_some hseq
      · cases (sequence?_two hx).symm.trans hseq
        split at h
        · next hlast =>
          obtain ⟨y, hy, tail, rfl, hdone⟩ := follow_tail_eq_some hlast
          cases hdone
          cases h
          exact ⟨[_], _, rfl, .two hx hy, rfl⟩
        · cases h
      · cases (sequence?_three x hx).symm.trans hseq
        split at h
        · next hfirst =>
          obtain ⟨y, tail, hlo, hhi, rfl, hlast⟩ := follow_eq_some (by split <;> decide) hfirst
          obtain ⟨z, hz, tail, rfl, hdone⟩ := follow_tail_eq_some hlast
          cases hdone
          cases h
          refine ⟨[_, _], _, rfl, .three hx ?_ hz ?_ ?_, rfl⟩
          · split at hhi <;> simp at hhi <;> omega
          · rintro rfl
            simp at hlo
            omega
          · rintro rfl
            simp at hhi
            omega
        · cases h
      · cases (sequence?_four w hw).symm.trans hseq
        split at h
        · next hfirst =>
          obtain ⟨x, tail, hlo, hhi, rfl, hrest⟩ := follow_eq_some (by split <;> decide) hfirst
          obtain ⟨y, hy, tail, rfl, hlast⟩ := follow_tail_eq_some hrest
          obtain ⟨z, hz, tail, rfl, hdone⟩ := follow_tail_eq_some hlast
          cases hdone
          cases h
          refine ⟨[_, _, _], _, rfl, .four hw ?_ hy hz ?_ ?_, rfl⟩
          · split at hhi <;> simp at hhi <;> omega
          · rintro rfl
            simp at hlo
            omega
          · rintro rfl
            simp at hhi
            omega
        · cases h

/-- Reading takes exactly the bytes of one character off the front. -/
theorem step_eq_some_iff {b : UInt8} {c : Char} {bs rest : List UInt8} :
    step b bs = (some c, rest) ↔ b :: bs = String.utf8EncodeChar c ++ rest := by
  constructor
  · intro h
    obtain ⟨tail, n, rfl, hspells, rfl⟩ := spells_of_step h
    rw [hspells.encodeChar, List.cons_append]
  · intro h
    have hspells := spells_encodeChar c
    cases hc : String.utf8EncodeChar c with
    | nil => exact absurd hc String.utf8EncodeChar_ne_nil
    | cons b' tail =>
      rw [hc] at h hspells
      obtain ⟨rfl, rfl⟩ := List.cons.inj h
      exact (step_of_spells hspells rest).trans (by rw [Char.ofNat_toNat])

/-! ## Texts -/

theorem scan_encodeChar (c : Char) (rest : List UInt8) :
    scan (String.utf8EncodeChar c ++ rest) = some c :: scan rest := by
  cases hc : String.utf8EncodeChar c with
  | nil => exact absurd hc String.utf8EncodeChar_ne_nil
  | cons b tail =>
    have hstep : step b (tail ++ rest) = (some c, rest) :=
      step_eq_some_iff.2 (by rw [hc, List.cons_append])
    rw [List.cons_append, scan_cons, hstep]

theorem scan_encode (s : String) : scan (encode s) = s.toList.map some := by
  rw [encode]
  induction s.toList with
  | nil => exact scan_nil
  | cons c cs ih => rw [List.flatMap_cons, scan_encodeChar, ih, List.map_cons]

/-- Bytes in which nothing is broken are those of the characters that are read. -/
theorem flatMap_encodeChar_of_scan {bs : List UInt8} {cs : List Char}
    (h : scan bs = cs.map some) : cs.flatMap String.utf8EncodeChar = bs := by
  induction cs generalizing bs with
  | nil =>
    cases bs with
    | nil => rfl
    | cons b bs =>
      rw [scan_cons] at h
      cases h
  | cons c cs ih =>
    cases bs with
    | nil =>
      rw [scan_nil] at h
      cases h
    | cons b bs =>
      rw [scan_cons, List.map_cons] at h
      obtain ⟨hc, hcs⟩ := List.cons.inj h
      rw [List.flatMap_cons, ih hcs]
      exact (step_eq_some_iff.1 (Prod.ext hc rfl)).symm

/-- A text that is written is read as it was. -/
@[simp]
theorem decodeLenient_encode (s : String) : decodeLenient (encode s) = s := by
  rw [decodeLenient, scan_encode, List.map_map]
  simp [Function.comp_def]

theorem mapM_id_eq_some_iff {α : Type} {l : List (Option α)} {as : List α} :
    l.mapM id = some as ↔ l = as.map some := by
  induction l generalizing as with
  | nil => cases as <;> simp
  | cons o l ih =>
    rw [List.mapM_cons]
    cases o with
    | none => cases as <;> simp
    | some a =>
      cases hl : l.mapM id with
      | none =>
        have hno : ∀ as : List α, l ≠ as.map some := fun as h => by
          rw [ih.2 h] at hl
          cases hl
        cases as <;> simp [hno]
      | some bs =>
        obtain rfl := ih.1 hl
        cases as with
        | nil => simp
        | cons => simp [List.map_inj_right]

/-- Strict reading accepts exactly what is written for texts. -/
theorem decode?_eq_some_iff {bs : List UInt8} {s : String} :
    decode? bs = some s ↔ encode s = bs := by
  constructor
  · intro h
    obtain ⟨cs, hcs, rfl⟩ := Option.map_eq_some_iff.1 h
    rw [encode, String.toList_ofList]
    exact flatMap_encodeChar_of_scan (mapM_id_eq_some_iff.1 hcs)
  · rintro rfl
    rw [decode?, scan_encode, mapM_id_eq_some_iff.2 rfl, Option.map_some, String.ofList_toList]

/-! ## NUL -/

/-- Only the code point 0 has a zero byte. -/
theorem Spells.eq_zero_of_mem {bs : List UInt8} {n : Nat} (h : Spells bs n) (hmem : 0 ∈ bs) :
    n = 0 := by
  have hzero : ∀ {x : Nat}, x < 256 → (0 : UInt8) = UInt8.ofNat x → x = 0 := by
    intro x hx h
    have := congrArg UInt8.toNat h
    rw [UInt8.toNat_ofNat_of_lt' hx] at this
    exact this.symm
  have hlead : ∀ {x k : Nat}, 0 < k → x + k < 256 → (0 : UInt8) ≠ UInt8.ofNat (x + k) := by
    intro x k hk hx h
    have := hzero hx h
    omega
  cases h with
  | one hx => exact hzero (by omega) (List.mem_singleton.1 hmem)
  | two hx hy =>
    simp only [List.mem_cons, List.not_mem_nil, or_false] at hmem
    rcases hmem with h | h
    all_goals exact absurd h (hlead (by decide) (by omega))
  | three hx hy hz =>
    simp only [List.mem_cons, List.not_mem_nil, or_false] at hmem
    rcases hmem with h | h | h
    all_goals exact absurd h (hlead (by decide) (by omega))
  | four hw hx hy hz =>
    simp only [List.mem_cons, List.not_mem_nil, or_false] at hmem
    rcases hmem with h | h | h | h
    all_goals exact absurd h (hlead (by decide) (by omega))

theorem eq_nul_of_mem {c : Char} (h : 0 ∈ String.utf8EncodeChar c) : c = '\x00' := by
  rw [← Char.ofNat_toNat c, (spells_encodeChar c).eq_zero_of_mem h]

theorem zero_not_mem_encode {s : String} (h : '\x00' ∉ s.toList) : 0 ∉ encode s := by
  intro hmem
  obtain ⟨c, hc, hzero⟩ := List.mem_flatMap.1 hmem
  exact h (eq_nul_of_mem hzero ▸ hc)

/-- A text without its NULs. -/
def withoutNul (s : String) : String := String.ofList (s.toList.filter (· != '\x00'))

/-- A text loses its zero bytes with its NULs. -/
theorem filter_encode (s : String) : (encode s).filter (· != 0) = encode (withoutNul s) := by
  rw [encode, encode, withoutNul, String.toList_ofList]
  induction s.toList with
  | nil => rfl
  | cons c cs ih =>
    rw [List.flatMap_cons, List.filter_append, ih]
    by_cases hc : c = '\x00'
    · subst hc
      rfl
    · have hchar : (String.utf8EncodeChar c).filter (· != 0) = String.utf8EncodeChar c := by
        refine List.filter_eq_self.2 fun b hb => bne_iff_ne.2 ?_
        rintro rfl
        exact hc (eq_nul_of_mem hb)
      have hcons : (c :: cs).filter (· != '\x00') = c :: cs.filter (· != '\x00') :=
        List.filter_cons_of_pos (bne_iff_ne.2 hc)
      rw [hchar, hcons, List.flatMap_cons]

theorem withoutNul_of_not_mem {s : String} (h : '\x00' ∉ s.toList) : withoutNul s = s := by
  have hall : s.toList.filter (· != '\x00') = s.toList := by
    refine List.filter_eq_self.2 fun c hc => bne_iff_ne.2 ?_
    rintro rfl
    exact h hc
  rw [withoutNul, hall, String.ofList_toList]

theorem follow_suffix (n : Nat) (lo hi : UInt8) (acc : Nat) (bs : List UInt8) :
    (follow n lo hi acc bs).2 <:+ bs := by
  induction n generalizing lo hi acc bs with
  | zero => exact List.suffix_refl bs
  | succ n ih =>
    cases bs with
    | nil => exact List.suffix_refl []
    | cons b tail =>
      rw [follow]
      split
      · exact (ih ..).trans (List.suffix_cons b tail)
      · exact List.suffix_refl _

theorem step_suffix (b : UInt8) (bs : List UInt8) : (step b bs).2 <:+ bs := by
  unfold step
  split
  · exact List.suffix_refl bs
  · split
    · exact List.suffix_refl bs
    · next n lo hi bits _ =>
      have hsuffix := follow_suffix n lo hi bits bs
      split
      · next hfollow => rwa [hfollow] at hsuffix
      · next hfollow => rwa [hfollow] at hsuffix

/-- Bytes without a zero are read as a text without a NUL. -/
theorem nul_not_mem_decodeLenient {bs : List UInt8} (h : 0 ∉ bs) :
    '\x00' ∉ (decodeLenient bs).toList := by
  rw [decodeLenient, String.toList_ofList]
  induction bs using scan.induct with
  | case1 => simp [scan_nil]
  | case2 b bs ih =>
    have hrest : 0 ∉ (step b bs).2 := fun hmem =>
      h (List.mem_cons_of_mem b ((step_suffix b bs).mem hmem))
    rw [scan_cons, List.map_cons, List.mem_cons, not_or]
    refine ⟨?_, ih hrest⟩
    cases hc : (step b bs).1 with
    | none => decide
    | some c =>
      -- a NUL can only come from a zero byte, broken sequences give none
      rintro rfl
      have hbytes := step_eq_some_iff.1 (Prod.ext hc rfl : step b bs = (some '\x00', _))
      refine h ?_
      rw [hbytes]
      exact List.mem_append_left _ (by decide)

end CounterTrace.Utf8
