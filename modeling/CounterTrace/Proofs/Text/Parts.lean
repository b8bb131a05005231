import CounterTrace.Text.Lines
import CounterTrace.Text.Numeral

/-!
# Parts of a text

A text that was put together from parts is cut into the same parts again, if the separator is in none
of them.

    splitOn sep (front ++ sep :: rest) = splitOn sep front ++ splitOn sep rest  (splitOn_append_cons)
    splitOn sep (parts, each ended by sep, then rest) = parts ++ splitOn sep rest  (splitOn_ended)
    splitOn sep (parts with sep between each two) = parts                       (splitOn_intercalate)

A number that is written in decimal is read again.

    read 10 limit (toString n) = .ok n     if n < limit                           (read_toString)
-/

namespace CounterTrace.Text

/-! ## Cutting -/

variable {sep : Char}

theorem splitOn_append_cons (sep : Char) (front rest : List Char) :
    splitOn sep (front ++ sep :: rest) = splitOn sep front ++ splitOn sep rest := by
  induction front with
  | nil => simp [splitOn]
  | cons c cs ih =>
    rw [List.cons_append, splitOn, splitOn, ih]
    by_cases hc : c = sep
    · rw [if_pos hc, if_pos hc, List.cons_append]
    · rw [if_neg hc, if_neg hc]
      cases hcs : splitOn sep cs with
      | nil => exact absurd hcs (splitOn_ne_nil sep cs)
      | cons part parts => rfl

/-- There is one part if and only if there is no separator. -/
theorem length_splitOn_eq_one_iff {cs : List Char} :
    (splitOn sep cs).length = 1 ↔ sep ∉ cs := by
  constructor
  · intro h hmem
    obtain ⟨front, rest, rfl⟩ := List.append_of_mem hmem
    have hfront := List.length_pos_iff.2 (splitOn_ne_nil sep front)
    have hrest := List.length_pos_iff.2 (splitOn_ne_nil sep rest)
    rw [splitOn_append_cons, List.length_append] at h
    omega
  · intro h
    induction cs with
    | nil => rfl
    | cons c cs ih =>
      have hc : c ≠ sep := fun heq => h (heq ▸ List.mem_cons_self)
      have hcs := ih fun hmem => h (List.mem_cons_of_mem _ hmem)
      rw [splitOn, if_neg hc]
      cases hparts : splitOn sep cs with
      | nil => rfl
      | cons part parts =>
        rw [hparts] at hcs
        exact hcs

theorem splitOn_of_not_mem {cs : List Char} (h : sep ∉ cs) : splitOn sep cs = [cs] := by
  obtain ⟨part, hpart⟩ := List.length_eq_one_iff.1 (length_splitOn_eq_one_iff.2 h)
  have hjoined := intercalate_splitOn sep cs
  rw [hpart, List.intercalate_singleton] at hjoined
  rw [hpart, hjoined]

theorem splitOn_append {front : List Char} (h : sep ∉ front) (rest : List Char) :
    splitOn sep (front ++ sep :: rest) = front :: splitOn sep rest := by
  rw [splitOn_append_cons, splitOn_of_not_mem h, List.singleton_append]

theorem splitOn_ended {parts : List (List Char)} (h : ∀ part ∈ parts, sep ∉ part)
    (rest : List Char) :
    splitOn sep (parts.flatMap (· ++ [sep]) ++ rest) = parts ++ splitOn sep rest := by
  induction parts with
  | nil => rfl
  | cons part parts ih =>
    have hpart := h part List.mem_cons_self
    have hparts := ih fun other hother => h other (List.mem_cons_of_mem _ hother)
    rw [List.flatMap_cons, List.append_assoc, List.append_assoc, List.singleton_append,
      splitOn_append hpart, hparts, List.cons_append]

theorem splitOn_intercalate {parts : List (List Char)} (hne : parts ≠ [])
    (h : ∀ part ∈ parts, sep ∉ part) : splitOn sep ([sep].intercalate parts) = parts := by
  induction parts with
  | nil => exact absurd rfl hne
  | cons part parts ih =>
    have hpart := h part List.mem_cons_self
    cases parts with
    | nil => rw [List.intercalate_singleton, splitOn_of_not_mem hpart]
    | cons next parts =>
      have hparts := ih (List.cons_ne_nil _ _)
        fun other hother => h other (List.mem_cons_of_mem _ hother)
      rw [List.intercalate_cons_cons, List.append_assoc, List.singleton_append,
        splitOn_append hpart, hparts]

/-- Between the parts there is nothing but separators. -/
theorem not_mem_intercalate {c : Char} (hc : c ≠ sep) {parts : List (List Char)}
    (h : ∀ part ∈ parts, c ∉ part) : c ∉ [sep].intercalate parts := by
  induction parts with
  | nil => exact List.not_mem_nil
  | cons part parts ih =>
    have hpart := h part List.mem_cons_self
    have hparts := ih fun other hother => h other (List.mem_cons_of_mem _ hother)
    cases parts with
    | nil => rwa [List.intercalate_singleton]
    | cons next parts =>
      rw [List.intercalate_cons_cons]
      simp [hpart, hc, hparts]

/-! ## Decimal numbers -/

/-- The characters of a decimal numeral. -/
theorem isDigit_of_mem_toString {n : Nat} {c : Char} (h : c ∈ (toString n).toList) :
    c.isDigit = true := by
  rw [Nat.toString_eq_repr, Nat.repr_eq_ofList_toDigits, String.toList_ofList] at h
  exact Nat.isDigit_of_mem_toDigits (by decide) (by decide) h

theorem not_mem_toString {c : Char} (h : c.isDigit = false) (n : Nat) :
    c ∉ (toString n).toList := by
  intro hmem
  rw [isDigit_of_mem_toString hmem] at h
  cases h

namespace Numeral

theorem digit?_of_isDigit {c : Char} (h : c.isDigit = true) :
    digit? 10 c = some (c.toNat - '0'.toNat) := by
  have hrange : '0' ≤ c ∧ c ≤ '9' := by
    simpa [Char.isDigit, Char.le_def] using h
  have hvalue : c.toNat - '0'.toNat < 10 := by
    have hle : c.toNat ≤ '9'.toNat := UInt32.le_iff_toNat_le.1 hrange.2
    have hnine : '9'.toNat = '0'.toNat + 9 := rfl
    omega
  simp only [digit?, hrange.1, hrange.2, decide_true, Bool.and_self, if_true, hvalue]

theorem le_ofDigitChars (acc : Nat) (cs : List Char) : acc ≤ Nat.ofDigitChars 10 cs acc := by
  induction cs generalizing acc with
  | nil => exact Nat.le_of_eq Nat.ofDigitChars_nil.symm
  | cons c cs ih =>
    rw [Nat.ofDigitChars_cons]
    have hnext := ih (10 * acc + (c.toNat - '0'.toNat))
    omega

theorem readDigits_of_isDigit {limit acc : Nat} {cs : List Char}
    (hcs : ∀ c ∈ cs, c.isDigit = true) (hlimit : Nat.ofDigitChars 10 cs acc < limit) :
    readDigits 10 limit acc cs = .ok (Nat.ofDigitChars 10 cs acc) := by
  induction cs generalizing acc with
  | nil => rw [readDigits, Nat.ofDigitChars_nil]
  | cons c cs ih =>
    rw [Nat.ofDigitChars_cons, Nat.mul_comm] at hlimit ⊢
    have hle := le_ofDigitChars (acc * 10 + (c.toNat - '0'.toNat)) cs
    have hfits : acc * 10 + (c.toNat - '0'.toNat) < limit := by omega
    simp only [readDigits, digit?_of_isDigit (hcs c List.mem_cons_self), if_pos hfits]
    exact ih (fun c hc => hcs c (List.mem_cons_of_mem _ hc)) hlimit

/-- Digits have no sign in front of them. -/
theorem read_of_isDigit {limit : Nat} {cs : List Char} (hne : cs ≠ [])
    (hcs : ∀ c ∈ cs, c.isDigit = true) : read 10 limit cs = readDigits 10 limit 0 cs := by
  unfold read
  split
  · exact absurd rfl hne
  · exact absurd (hcs '+' List.mem_cons_self) (by decide)
  · exact absurd (hcs '+' List.mem_cons_self) (by decide)
  · rfl

theorem read_toString {n limit : Nat} (h : n < limit) :
    read 10 limit (toString n).toList = .ok n := by
  have hdigits : ∀ c ∈ (toString n).toList, c.isDigit = true := fun c => isDigit_of_mem_toString
  rw [Nat.toString_eq_repr, Nat.repr_eq_ofList_toDigits, String.toList_ofList] at hdigits ⊢
  have hvalue : Nat.ofDigitChars 10 (Nat.toDigits 10 n) 0 = n := Nat.ofDigitChars_ten_toDigits
  have hread := readDigits_of_isDigit hdigits (hvalue.symm ▸ h)
  rw [hvalue] at hread
  rw [read_of_isDigit Nat.toDigits_ne_nil hdigits, hread]

theorem toString_inj {n m : Nat} : (toString n).toList = (toString m).toList ↔ n = m := by
  refine ⟨fun h => ?_, fun h => by rw [h]⟩
  have hn : read 10 (n + m + 1) (toString n).toList = .ok n := read_toString (by omega)
  have hm : read 10 (n + m + 1) (toString m).toList = .ok m := read_toString (by omega)
  rw [h, hm] at hn
  exact (Except.ok.inj hn).symm

end Numeral

end CounterTrace.Text
