import CounterTrace.Description
import CounterTrace.Proofs.Text.Parts

/-!
# Fields of a description

A description is read line by line, and every line is cut at its first colon.  Of lines that were
written as `key:  value`, with keys and values that fit a line, each field is found again with its
value.

    field? of the lines of fields, key = the value of the first field with that key   (field?_lines)
    (ofSettings period events).field? "period" = the period in decimal                (field?_period)
-/

namespace CounterTrace

namespace Text

/-- A line that ends comes first, and the others are those of the rest. -/
theorem lines_append {line : List Char} (h : '\n' ∉ line) (rest : List Char) :
    lines (line ++ '\n' :: rest) = dropReturn line :: lines rest := by
  have hne := splitOn_ne_nil '\n' rest
  simp only [lines, splitOn_append h]
  rw [List.dropLast_cons_of_ne_nil hne, List.getLast?_cons_of_ne_nil hne]
  rfl

theorem splitOnce_append {sep : Char} {front : List Char} (h : sep ∉ front) (rest : List Char) :
    splitOnce sep (front ++ sep :: rest) = some (front, rest) := by
  have hfront : ∀ c ∈ front, (c != sep) = true := fun c hc => by
    simpa using fun heq : c = sep => h (heq ▸ hc)
  simp [splitOnce, List.dropWhile_append_of_pos hfront, List.takeWhile_append_of_pos hfront]

/-- Without blanks there is nothing to trim, and blanks in front make no difference. -/
theorem trim_append {blanks cs : List Char} (hblanks : ∀ c ∈ blanks, isBlank c = true)
    (h : ∀ c ∈ cs, isBlank c = false) : trim (blanks ++ cs) = cs := by
  have hfront : trimFront (blanks ++ cs) = cs := by
    rw [trimFront, List.dropWhile_append_of_pos hblanks]
    cases cs with
    | nil => rfl
    | cons c cs => exact trimFront_cons_of_not_blank (h c List.mem_cons_self)
  have hback : cs.reverse.dropWhile isBlank = cs.reverse := by
    cases hr : cs.reverse with
    | nil => rfl
    | cons c rest =>
      have hc : c ∈ cs := List.mem_reverse.1 (hr ▸ List.mem_cons_self)
      exact List.dropWhile_cons_of_neg (by simp [h c hc])
  rw [trim, hfront, trimBack, hback, List.reverse_reverse]

end Text

namespace Description

open Text

/-- A key and a value that can stand in one line. -/
structure Plain (key value : List Char) : Prop where
  key : ∀ c ∈ key, c ≠ ':' ∧ c ≠ '\n'
  value : ∀ c ∈ value, isBlank c = false

/-- Decimal digits have nothing that ends a key or a line, and are no blanks. -/
theorem not_blank_of_isDigit {c : Char} (h : c.isDigit = true) :
    c ≠ ':' ∧ c ≠ '\n' ∧ isBlank c = false := by
  have hrange : 48 ≤ c.toNat ∧ c.toNat ≤ 57 := by
    simp only [Char.isDigit, Bool.and_eq_true, decide_eq_true_eq, ge_iff_le,
      UInt32.le_iff_toNat_le] at h
    exact h
  refine ⟨?_, ?_, ?_⟩
  · rintro rfl
    exact absurd hrange.2 (by decide)
  · rintro rfl
    exact absurd hrange.1 (by decide)
  · cases hblank : isBlank c with
    | false => rfl
    | true =>
      simp only [isBlank, Bool.or_eq_true, Bool.and_eq_true, decide_eq_true_eq,
        beq_iff_eq] at hblank
      omega

def isKey (key : List Char) : Bool := key.all fun c => c != ':' && c != '\n'

theorem ne_of_isKey (key : List Char) (h : isKey key = true) :
    ∀ c ∈ key, c ≠ ':' ∧ c ≠ '\n' := by
  intro c hc
  simpa using List.all_eq_true.1 h c hc

/-- The line of a field, without its end. -/
def line (key value : List Char) : List Char := key ++ ':' :: ' ' :: ' ' :: value

theorem toList_fieldLine (key value : String) :
    (fieldLine key value).toList = line key.toList value.toList ++ ['\n'] := by
  simp [fieldLine, line, String.toList_append]

section
variable {key value : List Char} (h : Plain key value)
include h

/-- The only character that a line could lose at its end is a blank. -/
theorem dropReturn_line : dropReturn (line key value) = line key value := by
  refine if_neg fun hlast => ?_
  simp only [line, List.getLast?_append, List.getLast?_cons, Option.some_or,
    Option.some.injEq] at hlast
  cases hvalue : value.getLast? with
  | none =>
    rw [hvalue] at hlast
    cases hlast
  | some c =>
    rw [hvalue, Option.getD_some] at hlast
    subst hlast
    exact absurd (h.value _ (List.mem_of_getLast? hvalue)) (by decide)

theorem newline_not_mem_line : '\n' ∉ line key value := by
  intro hmem
  simp only [line, List.mem_append, List.mem_cons] at hmem
  rcases hmem with hkey | heq | heq | heq | hvalue
  · exact (h.key _ hkey).2 rfl
  · cases heq
  · cases heq
  · cases heq
  · exact absurd (h.value _ hvalue) (by decide)

theorem valueOf?_line (asked : List Char) :
    valueOf? asked (line key value) = if key = asked then some value else none := by
  have hcolon : ':' ∉ key := fun hmem => (h.key _ hmem).1 rfl
  have hblanks : [' ', ' '].all isBlank = true := rfl
  have htrim : trim (' ' :: ' ' :: value) = value :=
    trim_append (List.all_eq_true.1 hblanks) h.value
  simp only [valueOf?, line, splitOnce_append hcolon, htrim]

end

section
variable {fields : List (String × String)}

/-- The lines of a text that was written field by field. -/
theorem lines_join (hfields : ∀ f ∈ fields, Plain f.1.toList f.2.toList) :
    lines (String.join (fields.map fun f => fieldLine f.1 f.2)).toList =
      fields.map fun f => line f.1.toList f.2.toList := by
  rw [String.toList_join]
  induction fields with
  | nil => rfl
  | cons f fields ih =>
    have hplain := hfields f List.mem_cons_self
    have hrest := ih fun g hg => hfields g (List.mem_cons_of_mem _ hg)
    rw [List.map_cons, List.flatMap_cons, toList_fieldLine, List.append_assoc]
    exact (lines_append (newline_not_mem_line hplain) _).trans
      (congr (congrArg _ (dropReturn_line hplain)) hrest)

/-- Of the lines of plain fields, the first with a key gives its value. -/
theorem findSome?_valueOf? (hfields : ∀ f ∈ fields, Plain f.1.toList f.2.toList) (key : String) :
    (fields.map fun f => line f.1.toList f.2.toList).findSome? (valueOf? key.toList) =
      (fields.find? (·.1 = key)).map (·.2.toList) := by
  induction fields with
  | nil => rfl
  | cons f fields ih =>
    have hrest := ih fun g hg => hfields g (List.mem_cons_of_mem _ hg)
    rw [List.map_cons, List.findSome?_cons, valueOf?_line (hfields f List.mem_cons_self)]
    by_cases hkey : f.1 = key
    · rw [if_pos (congrArg _ hkey), List.find?_cons_of_pos (by simpa using hkey)]
      rfl
    · rw [if_neg fun heq => hkey (String.toList_inj.1 heq),
        List.find?_cons_of_neg (by simpa using hkey)]
      exact hrest

/-- A text that was written field by field shows the first field with a key. -/
theorem field?_lines (hfields : ∀ f ∈ fields, Plain f.1.toList f.2.toList) (key : String) :
    field? ⟨String.join (fields.map fun f => fieldLine f.1 f.2)⟩ key =
      (fields.find? (·.1 = key)).map (·.2) := by
  rw [field?, lines_join hfields, findSome?_valueOf? hfields, Option.map_map]
  simp only [Function.comp_def, String.ofList_toList]

end

/-- The fields of a capture. -/
def fieldsOf (period : UInt32) (events : List UInt32) : List (String × String) :=
  ("period", toString period.toNat) ::
    (List.range eventLines).map fun i =>
      (eventKey i, (events[i]?).elim "" fun v => toString v.toNat)

theorem ofSettings_eq (period : UInt32) (events : List UInt32) :
    ofSettings period events =
      ⟨String.join ((fieldsOf period events).map fun f => fieldLine f.1 f.2)⟩ := by
  rw [ofSettings, fieldsOf, List.map_cons, List.map_map]
  rfl

/-- The fields of a capture are numerals, or nothing, under keys of letters and digits. -/
theorem plain_fieldsOf (period : UInt32) (events : List UInt32) :
    ∀ f ∈ fieldsOf period events, Plain f.1.toList f.2.toList := by
  have hnumeral : ∀ n : Nat, ∀ c ∈ (toString n).toList, isBlank c = false :=
    fun n c hc => (not_blank_of_isDigit (isDigit_of_mem_toString hc)).2.2
  intro f hf
  rcases List.mem_cons.1 hf with rfl | hf
  · exact ⟨ne_of_isKey "period".toList rfl, hnumeral _⟩
  · obtain ⟨i, -, rfl⟩ := List.mem_map.1 hf
    refine ⟨fun c hc => ?_, ?_⟩
    · rw [eventKey, String.toList_append] at hc
      rcases List.mem_append.1 hc with hc | hc
      · exact ne_of_isKey "event".toList rfl c hc
      · have hdigit := not_blank_of_isDigit (isDigit_of_mem_toString hc)
        exact ⟨hdigit.1, hdigit.2.1⟩
    · cases events[i]? with
      | none => simp
      | some v => exact hnumeral _

/-- A description shows the period in decimal. -/
theorem field?_period (period : UInt32) (events : List UInt32) :
    (ofSettings period events).field? "period" = some (toString period.toNat) := by
  rw [ofSettings_eq, field?_lines (plain_fieldsOf period events)]
  rfl

end Description

end CounterTrace
