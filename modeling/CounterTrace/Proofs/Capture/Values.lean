import Mathlib.Data.List.DropRight
import CounterTrace.Control
import CounterTrace.Proofs.Text.Numerals

/-!
# Values of knobs

The text of a value may have blanks around it.  Between them stands a numeral: a decimal one, or a
hexadecimal one behind `0x` or `0X`.

    trim cs = body ↔ Trimmed cs body                                               (trim_eq_iff)
    parseTrimmed body = .ok v ↔ ValueText body v.toNat                    (parseTrimmed_eq_ok_iff)

A value is read if and only if its text has this form and the number fits 32 bits, and every error
shows the text without its blanks.
-/

namespace CounterTrace

namespace Text

/-! ## Blanks around a text -/

/-- A text with all blanks at its ends removed, and nothing else. -/
structure Trimmed (cs body : List Char) : Prop where
  around : ∃ front back, cs = front ++ body ++ back ∧
    (∀ c ∈ front, isBlank c = true) ∧ ∀ c ∈ back, isBlank c = true
  first : ∀ c, body.head? = some c → isBlank c = false
  last : ∀ c, body.getLast? = some c → isBlank c = false

theorem trimFront_append {front rest : List Char} (hfront : ∀ c ∈ front, isBlank c = true)
    (hrest : ∀ c, rest.head? = some c → isBlank c = false) : trimFront (front ++ rest) = rest := by
  rw [trimFront, List.dropWhile_append_of_pos hfront]
  cases rest with
  | nil => rfl
  | cons c rest => exact trimFront_cons_of_not_blank (hrest c rfl)

theorem trimBack_append {rest back : List Char}
    (hrest : ∀ c, rest.getLast? = some c → isBlank c = false)
    (hback : ∀ c ∈ back, isBlank c = true) : trimBack (rest ++ back) = rest := by
  have hreversed : trimFront (back.reverse ++ rest.reverse) = rest.reverse := by
    refine trimFront_append (fun c hc => hback c (List.mem_reverse.1 hc)) fun c hc => ?_
    exact hrest c (List.head?_reverse.symm.trans hc)
  show (trimFront (rest ++ back).reverse).reverse = rest
  rw [List.reverse_append, hreversed, List.reverse_reverse]

/-- Trimming removes blanks only. -/
theorem exists_around_trim (cs : List Char) :
    ∃ front back, cs = front ++ trim cs ++ back ∧
      (∀ c ∈ front, isBlank c = true) ∧ ∀ c ∈ back, isBlank c = true := by
  refine ⟨cs.takeWhile isBlank, (trimFront cs).rtakeWhile isBlank, ?_, ?_, ?_⟩
  · rw [List.append_assoc]
    have hback : trim cs ++ (trimFront cs).rtakeWhile isBlank = trimFront cs :=
      List.rdropWhile_append_rtakeWhile
    rw [hback]
    exact List.takeWhile_append_dropWhile.symm
  · exact fun c hc => List.mem_takeWhile_imp hc
  · exact fun c hc => List.mem_rtakeWhile_imp hc

/-- What is left when the front is trimmed does not begin with a blank. -/
theorem not_blank_of_head?_trimFront {cs : List Char} {c : Char}
    (h : (trimFront cs).head? = some c) : isBlank c = false := by
  have hhead := List.head?_dropWhile_not isBlank cs
  rw [trimFront] at h
  rw [h] at hhead
  exact hhead

theorem trim_eq_iff {cs body : List Char} : trim cs = body ↔ Trimmed cs body := by
  constructor
  · rintro rfl
    refine ⟨exists_around_trim cs, fun c hc => ?_, fun c hc => ?_⟩
    · obtain ⟨rest, hrest⟩ : trim cs <+: trimFront cs :=
        List.rdropWhile_prefix isBlank (trimFront cs)
      have hhead : (trimFront cs).head? = some c := by
        rw [← hrest, List.head?_append, hc, Option.some_or]
      exact not_blank_of_head?_trimFront hhead
    · have hhead : (trimFront (trimFront cs).reverse).head? = some c :=
        List.getLast?_reverse.symm.trans hc
      exact not_blank_of_head?_trimFront hhead
  · rintro ⟨⟨front, back, rfl, hfront, hback⟩, hfirst, hlast⟩
    cases body with
    | nil =>
      have hblank : ∀ c ∈ front ++ back, isBlank c = true := fun c hc =>
        (List.mem_append.1 hc).elim (hfront c) (hback c)
      have hnothing : trimFront (front ++ back ++ []) = [] := trimFront_append hblank nofun
      rw [List.append_nil] at hnothing ⊢
      rw [trim, hnothing]
      rfl
    | cons c body =>
      have hrest : trimFront (front ++ (c :: body ++ back)) = c :: body ++ back :=
        trimFront_append hfront hfirst
      rw [trim, List.append_assoc, hrest]
      exact trimBack_append hlast hback

end Text

open Text Numeral

/-! ## Values -/

/-- A value without blanks around it: a decimal numeral, or a hexadecimal one that is marked. -/
inductive ValueText : List Char → Nat → Prop where
  | decimal {cs : List Char} {n : Nat} (h : IsNumeral 10 cs n) : ValueText cs n
  | hexadecimal {x : Char} {cs : List Char} {n : Nat} (hx : x = 'x' ∨ x = 'X')
    (h : IsNumeral 16 cs n) : ValueText ('0' :: x :: cs) n

/-- A decimal numeral has no mark. -/
theorem not_isNumeral_marked {x : Char} (hx : x = 'x' ∨ x = 'X') {cs : List Char} {n : Nat} :
    ¬ IsNumeral 10 ('0' :: x :: cs) n := by
  rintro (⟨-, values, hvalues, -⟩)
  obtain ⟨_, _, -, hvalues, -⟩ := List.forall₂_cons_left_iff.1 hvalues
  obtain ⟨d, _, hd, -⟩ := List.forall₂_cons_left_iff.1 hvalues
  have hdigit := (digit?_eq_some_iff (by decide)).2 hd
  rcases hx with rfl | rfl
  · cases hdigit
  · cases hdigit

/-- The value of a knob is read as a numeral, after the mark if there is one. -/
theorem parseTrimmed_cases (cs : List Char) :
    (∃ x digits, (x = 'x' ∨ x = 'X') ∧ cs = '0' :: x :: digits ∧
      parseTrimmed cs = ((read 16 UInt32.size digits).map UInt32.ofNat).mapError
        (.invalidHex (String.ofList cs))) ∨
    (∀ x digits, x = 'x' ∨ x = 'X' → cs ≠ '0' :: x :: digits) ∧
      parseTrimmed cs = ((read 10 UInt32.size cs).map UInt32.ofNat).mapError
        (.invalidDecimal (String.ofList cs)) := by
  unfold parseTrimmed
  split
  · next digits =>
    refine .inl ⟨'x', digits, .inl rfl, rfl, ?_⟩
    cases hr : read 16 UInt32.size digits <;> simp only [hr, Except.map, Except.mapError]
  · next digits =>
    refine .inl ⟨'X', digits, .inr rfl, rfl, ?_⟩
    cases hr : read 16 UInt32.size digits <;> simp only [hr, Except.map, Except.mapError]
  · next hlower hupper =>
    refine .inr ⟨?_, ?_⟩
    · rintro x digits (rfl | rfl) rfl
      · exact hlower digits rfl
      · exact hupper digits rfl
    · cases hr : read 10 UInt32.size cs <;> simp only [Except.map, Except.mapError]

/-- A numeral below the limit of words is not changed by being put into a word. -/
theorem word_eq_ok_iff {base : Nat} (hpos : 0 < base) (hbase : base ≤ 36) {digits : List Char}
    {wrong : NumeralError → KnobError} {v : UInt32} :
    ((read base UInt32.size digits).map UInt32.ofNat).mapError wrong = .ok v ↔
      IsNumeral base digits v.toNat := by
  have hread (n : Nat) : read base UInt32.size digits = .ok n ↔
    IsNumeral base digits n ∧ n < UInt32.size := read_eq_ok_iff hpos hbase (by decide)
  constructor
  · intro h
    cases hr : read base UInt32.size digits with
    | error why =>
      rw [hr] at h
      cases h
    | ok n =>
      rw [hr] at h
      obtain rfl : UInt32.ofNat n = v := Except.ok.inj h
      obtain ⟨hn, hlt⟩ := (hread n).1 hr
      rwa [UInt32.toNat_ofNat_of_lt' hlt]
  · intro h
    rw [(hread v.toNat).2 ⟨h, v.toNat_lt⟩]
    simp [Except.map, Except.mapError]

theorem parseTrimmed_eq_ok_iff {cs : List Char} {v : UInt32} :
    parseTrimmed cs = .ok v ↔ ValueText cs v.toNat := by
  rcases parseTrimmed_cases cs with ⟨x, digits, hx, rfl, hparse⟩ | ⟨hunmarked, hparse⟩
  · rw [hparse, word_eq_ok_iff (by decide) (by decide)]
    refine ⟨.hexadecimal hx, fun h => ?_⟩
    cases h with
    | decimal h => exact absurd h (not_isNumeral_marked hx)
    | hexadecimal _ h => exact h
  · rw [hparse, word_eq_ok_iff (by decide) (by decide)]
    refine ⟨.decimal, fun h => ?_⟩
    cases h with
    | decimal h => exact h
    | hexadecimal hx => exact absurd rfl (hunmarked _ _ hx)

/-- An error shows the text that was to be read. -/
theorem parseTrimmed_eq_error {cs : List Char} {e : KnobError} (h : parseTrimmed cs = .error e) :
    ∃ why, e = .invalidHex (String.ofList cs) why ∨ e = .invalidDecimal (String.ofList cs) why := by
  rcases parseTrimmed_cases cs with ⟨_, digits, -, -, hparse⟩ | ⟨-, hparse⟩
  · rw [hparse] at h
    cases hr : read 16 UInt32.size digits with
    | ok => rw [hr] at h; cases h
    | error why => rw [hr] at h; exact ⟨why, .inl (Except.error.inj h).symm⟩
  · rw [hparse] at h
    cases hr : read 10 UInt32.size cs with
    | ok => rw [hr] at h; cases h
    | error why => rw [hr] at h; exact ⟨why, .inr (Except.error.inj h).symm⟩

/-- **The values of knobs.**  For every text, a value is read if and only if the text without the
blanks around it is a decimal numeral, or a hexadecimal one behind its mark, that stands for this
value, and the value fits 32 bits.  Any other text gives an error, which shows the text without
the blanks. -/
theorem parseValue_reads_exactly (raw : String) :
    (∀ n, (∃ v, parseValue raw = .ok v ∧ v.toNat = n) ↔
      (∃ body, Trimmed raw.toList body ∧ ValueText body n) ∧ n < 2 ^ 32) ∧
    ((¬ ∃ n body, Trimmed raw.toList body ∧ ValueText body n ∧ n < 2 ^ 32) →
      ∃ body why, Trimmed raw.toList body ∧
        (parseValue raw = .error (.invalidHex (String.ofList body) why) ∨
          parseValue raw = .error (.invalidDecimal (String.ofList body) why))) := by
  have hbody {n : Nat} : (∃ body, Trimmed raw.toList body ∧ ValueText body n) ↔
      ValueText (trim raw.toList) n := by
    refine ⟨fun ⟨body, hbody, h⟩ => ?_, fun h => ⟨_, trim_eq_iff.1 rfl, h⟩⟩
    rwa [trim_eq_iff.2 hbody]
  have hvalue {v : UInt32} : parseValue raw = .ok v ↔ ValueText (trim raw.toList) v.toNat :=
    parseTrimmed_eq_ok_iff
  constructor
  · intro n
    rw [hbody]
    constructor
    · rintro ⟨v, hv, rfl⟩
      exact ⟨hvalue.1 hv, v.toNat_lt⟩
    · rintro ⟨h, hlt⟩
      have hn : (UInt32.ofNat n).toNat = n := UInt32.toNat_ofNat_of_lt' hlt
      exact ⟨UInt32.ofNat n, hvalue.2 (hn.symm ▸ h), hn⟩
  · intro hnone
    cases hparse : parseValue raw with
    | ok v =>
      obtain ⟨body, hbody, h⟩ := hbody.2 (hvalue.1 hparse)
      exact absurd ⟨_, body, hbody, h, v.toNat_lt⟩ hnone
    | error e =>
      obtain ⟨why, hwhy⟩ := parseTrimmed_eq_error hparse
      refine ⟨trim raw.toList, why, trim_eq_iff.1 rfl, ?_⟩
      rcases hwhy with rfl | rfl
      · exact .inl rfl
      · exact .inr rfl

example : parseValue "\t0X+00000000001f\n" = .ok 31 := by decide +kernel

end CounterTrace
