import Mathlib.Data.List.Forall2
import Mathlib.Data.Nat.Digits.Defs
import Mathlib.Tactic.Ring
import CounterTrace.Text.Numeral

/-!
# What numerals stand for

A numeral is read digit by digit, and reading stops as soon as the limit is reached.  What comes of
it is described by the digits alone: they stand for a number, leading zeros or not, and that number
is read if it lies below the limit.

    digit? base c = some d ↔ IsDigit base c d                                  (digit?_eq_some_iff)
    readDigits base limit acc cs = .ok n
      ↔ the digits of cs, put behind acc, stand for n, and n < limit         (readDigits_eq_ok_iff)
    read base limit cs = .ok n ↔ IsNumeral base cs n ∧ n < limit                   (read_eq_ok_iff)
-/

namespace CounterTrace.Text.Numeral

/-! ## Digits -/

/-- The digits of all bases up to 36, in the order of their values. -/
def lowerDigits : List Char := "0123456789abcdefghijklmnopqrstuvwxyz".toList

/-- The same digits with capital letters. -/
def upperDigits : List Char := "0123456789ABCDEFGHIJKLMNOPQRSTUVWXYZ".toList

/-- A character is the digit of a base with a given value, in either case. -/
def IsDigit (base : Nat) (c : Char) (d : Nat) : Prop :=
  d < base ∧ (lowerDigits[d]? = some c ∨ upperDigits[d]? = some c)

/-- Digits that follow each other in the table of characters are found by their distance from the
first of them. -/
theorem getElem?_of_row {digits : List Char} {start : Nat} {first last c : Char}
    (hrow : ∀ i < last.toNat + 1 - first.toNat,
      digits[i + start]? = some (Char.ofNat (first.toNat + i)))
    (hc : (first ≤ c && c ≤ last) = true) : digits[c.toNat - first.toNat + start]? = some c := by
  have hrange : first.toNat ≤ c.toNat ∧ c.toNat ≤ last.toNat := by
    simpa [Char.le_def, UInt32.le_iff_toNat_le] using hc
  rw [hrow _ (by omega), Nat.add_sub_cancel' hrange.1, Char.ofNat_toNat]

/-- A digit has the same value in every base that has the digit. -/
theorem digit?_cases (c : Char) :
    (∃ d, (lowerDigits[d]? = some c ∨ upperDigits[d]? = some c) ∧
      ∀ base, digit? base c = if d < base then some d else none) ∨
    ∀ base, digit? base c = none := by
  by_cases hnumber : ('0' ≤ c && c ≤ '9') = true
  · have hrow : lowerDigits[c.toNat - '0'.toNat + 0]? = some c :=
      getElem?_of_row (by decide) hnumber
    refine .inl ⟨c.toNat - '0'.toNat, .inl hrow, fun base => ?_⟩
    simp only [digit?, hnumber, if_true]
  by_cases hlower : ('a' ≤ c && c ≤ 'z') = true
  · refine .inl ⟨c.toNat - 'a'.toNat + 10, .inl (getElem?_of_row (by decide) hlower), fun base => ?_⟩
    simp only [digit?, hnumber, hlower, if_true, if_false, Bool.false_eq_true]
  by_cases hupper : ('A' ≤ c && c ≤ 'Z') = true
  · refine .inl ⟨c.toNat - 'A'.toNat + 10, .inr (getElem?_of_row (by decide) hupper), fun base => ?_⟩
    simp only [digit?, hnumber, hlower, hupper, if_true, if_false, Bool.false_eq_true]
  · refine .inr fun base => ?_
    simp only [digit?, hnumber, hlower, hupper, if_false, Bool.false_eq_true, Nat.lt_irrefl]

theorem digit?_eq_some_iff {base d : Nat} (hbase : base ≤ 36) {c : Char} :
    digit? base c = some d ↔ IsDigit base c d := by
  have hlower : ∀ d < 36, lowerDigits[d]?.bind (digit? 36) = some d := by decide
  have hupper : ∀ d < 36, upperDigits[d]?.bind (digit? 36) = some d := by decide
  constructor
  · intro h
    rcases digit?_cases c with ⟨v, hv, hdigit⟩ | hnone
    · rw [hdigit] at h
      split at h
      · next hlt =>
        obtain rfl := Option.some.inj h
        exact ⟨hlt, hv⟩
      · cases h
    · rw [hnone] at h
      cases h
  · rintro ⟨hd, hc⟩
    have hlargest : digit? 36 c = some d := by
      rcases hc with hc | hc
      · simpa [hc] using hlower d (by omega)
      · simpa [hc] using hupper d (by omega)
    rcases digit?_cases c with ⟨v, -, hdigit⟩ | hnone
    · rw [hdigit] at hlargest ⊢
      split at hlargest
      · obtain rfl := Option.some.inj hlargest
        exact if_pos hd
      · cases hlargest
    · rw [hnone] at hlargest
      cases hlargest

/-! ## Numbers -/

/-- Digits, the most significant first, that stand for a number. -/
def Denotes (base : Nat) (digits : List Char) (n : Nat) : Prop :=
  ∃ values, List.Forall₂ (IsDigit base) digits values ∧ Nat.ofDigits base values.reverse = n

/-- One or more digits that stand for a number, with a plus sign in front of them or none. -/
inductive IsNumeral (base : Nat) : List Char → Nat → Prop where
  | bare {digits : List Char} {n : Nat} (hne : digits ≠ []) (h : Denotes base digits n) :
    IsNumeral base digits n
  | plus {digits : List Char} {n : Nat} (hne : digits ≠ []) (h : Denotes base digits n) :
    IsNumeral base ('+' :: digits) n

section
variable {base limit : Nat} (hpos : 0 < base) (hbase : base ≤ 36)
include hpos hbase

/-- Reading goes on from a front part of the number, which the digits that follow can only make
larger. -/
theorem readDigits_eq_ok_iff {acc n : Nat} (hacc : acc < limit) {cs : List Char} :
    readDigits base limit acc cs = .ok n ↔
      (∃ values, List.Forall₂ (IsDigit base) cs values ∧
        Nat.ofDigits base values.reverse + base ^ values.length * acc = n) ∧ n < limit := by
  induction cs generalizing acc with
  | nil =>
    simp only [readDigits, List.forall₂_nil_left_iff, exists_eq_left, List.reverse_nil,
      Nat.ofDigits_nil, List.length_nil, pow_zero, one_mul, zero_add, Except.ok.injEq]
    exact ⟨fun h => ⟨h, h ▸ hacc⟩, fun h => h.1⟩
  | cons c cs ih =>
    have hcons : ∀ d (values : List Nat), Nat.ofDigits base (d :: values).reverse +
        base ^ (d :: values).length * acc =
          Nat.ofDigits base values.reverse + base ^ values.length * (acc * base + d) := by
      intro d values
      rw [List.reverse_cons, Nat.ofDigits_append, Nat.ofDigits_singleton, List.length_reverse,
        List.length_cons]
      ring
    cases hdigit : digit? base c with
    | none =>
      simp only [readDigits, hdigit, reduceCtorEq, false_iff, not_and]
      rintro ⟨values, hvalues, -⟩
      obtain ⟨d, _, hd, -⟩ := List.forall₂_cons_left_iff.1 hvalues
      cases hdigit.symm.trans ((digit?_eq_some_iff hbase).2 hd)
    | some d =>
      have hd := (digit?_eq_some_iff hbase).1 hdigit
      have hstep : (∃ values, List.Forall₂ (IsDigit base) (c :: cs) values ∧
          Nat.ofDigits base values.reverse + base ^ values.length * acc = n) ↔
          ∃ values, List.Forall₂ (IsDigit base) cs values ∧
            Nat.ofDigits base values.reverse + base ^ values.length * (acc * base + d) = n := by
        constructor
        · rintro ⟨_, hall, hn⟩
          obtain ⟨d', values, hd', hvalues, rfl⟩ := List.forall₂_cons_left_iff.1 hall
          obtain rfl : d = d' :=
            Option.some.inj (hdigit.symm.trans ((digit?_eq_some_iff hbase).2 hd'))
          exact ⟨values, hvalues, (hcons d values).symm.trans hn⟩
        · rintro ⟨values, hvalues, hn⟩
          exact ⟨d :: values, .cons hd hvalues, (hcons d values).trans hn⟩
      simp only [readDigits, hdigit]
      rw [hstep]
      split
      · next hfits => exact ih hfits
      · next hlarge =>
        -- what is too large already stays so
        simp only [reduceCtorEq, false_iff, not_and]
        rintro ⟨values, -, rfl⟩
        have hpower : 1 * (acc * base + d) ≤ base ^ values.length * (acc * base + d) :=
          Nat.mul_le_mul_right _ (Nat.pow_pos hpos)
        omega

/-- Digits alone are read as the number that they stand for. -/
theorem readDigits_zero_eq_ok_iff {n : Nat} (hlimit : 0 < limit) {cs : List Char} :
    readDigits base limit 0 cs = .ok n ↔ Denotes base cs n ∧ n < limit := by
  rw [readDigits_eq_ok_iff hpos hbase hlimit]
  simp only [Nat.mul_zero, Nat.add_zero, Denotes]

omit hpos in
/-- Of the digits of a base none is a plus sign. -/
theorem not_denotes_plus {digits : List Char} {n : Nat} : ¬ Denotes base ('+' :: digits) n := by
  rintro ⟨values, hvalues, -⟩
  obtain ⟨d, -, hd, -, -⟩ := List.forall₂_cons_left_iff.1 hvalues
  have hnone : digit? base '+' = none := by simp [digit?]
  cases hnone.symm.trans ((digit?_eq_some_iff hbase).2 hd)

theorem read_eq_ok_iff {n : Nat} (hlimit : 0 < limit) {cs : List Char} :
    read base limit cs = .ok n ↔ IsNumeral base cs n ∧ n < limit := by
  have hdigits (digits : List Char) : readDigits base limit 0 digits = .ok n ↔
    Denotes base digits n ∧ n < limit := readDigits_zero_eq_ok_iff hpos hbase hlimit
  cases cs with
  | nil =>
    refine ⟨nofun, fun ⟨h, _⟩ => ?_⟩
    cases h with
    | bare hne => exact absurd rfl hne
  | cons c cs =>
    by_cases hc : c = '+'
    · subst hc
      cases cs with
      | nil =>
        refine ⟨nofun, fun ⟨h, _⟩ => ?_⟩
        cases h with
        | bare _ h => exact absurd h (not_denotes_plus hbase)
        | plus hne => exact absurd rfl hne
      | cons d cs =>
        refine (hdigits (d :: cs)).trans (and_congr_left fun _ => ⟨?_, fun h => ?_⟩)
        · exact .plus (List.cons_ne_nil _ _)
        · cases h with
          | bare _ h => exact absurd h (not_denotes_plus hbase)
          | plus _ h => exact h
    · have hread : read base limit (c :: cs) = readDigits base limit 0 (c :: cs) := by
        unfold read
        split <;> simp_all
      rw [hread, hdigits]
      refine and_congr_left fun _ => ⟨.bare (List.cons_ne_nil _ _), fun h => ?_⟩
      cases h with
      | bare _ h => exact h
      | plus => exact absurd rfl hc

end

end CounterTrace.Text.Numeral
