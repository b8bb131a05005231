/-!
# Lines

A text is cut at a separating character, or into lines.  A line ends with a line feed, which may
have a carriage return in front of it; the last line needs no end, and an empty one does not count.

    (splitOn sep cs).intercalate [sep] = cs         (intercalate_splitOn)
-/

namespace CounterTrace.Text

/-- Cuts a text at every occurrence of a character. -/
def splitOn (sep : Char) : List Char → List (List Char)
  | [] => [[]]
  | c :: cs =>
    if c = sep then [] :: splitOn sep cs
    else
      match splitOn sep cs with
      | [] => [[c]]
      | part :: rest => (c :: part) :: rest

/-- Drops one carriage return from the end. -/
def dropReturn (cs : List Char) : List Char :=
  if cs.getLast? = some '\r' then cs.dropLast else cs

/-- The lines of a text, without their ends. -/
def lines (cs : List Char) : List (List Char) :=
  let parts := splitOn '\n' cs
  parts.dropLast.map dropReturn ++ (parts.getLast?.toList.filter (!·.isEmpty))

/-- The text in front of the first occurrence of a character, and the text after it. -/
def splitOnce (sep : Char) (cs : List Char) : Option (List Char × List Char) :=
  match cs.dropWhile (· != sep) with
  | [] => none
  | _ :: rest => some (cs.takeWhile (· != sep), rest)

theorem splitOn_ne_nil (sep : Char) (cs : List Char) : splitOn sep cs ≠ [] := by
  cases cs with
  | nil => simp [splitOn]
  | cons c cs =>
    simp only [splitOn]
    split
    · simp
    · split <;> simp

theorem intercalate_splitOn (sep : Char) (cs : List Char) :
    List.intercalate [sep] (splitOn sep cs) = cs := by
  induction cs with
  | nil => simp [splitOn, List.intercalate]
  | cons c cs ih =>
    have hne := splitOn_ne_nil sep cs
    simp only [splitOn]
    split
    · next h =>
      subst h
      cases hs : splitOn c cs with
      | nil => exact absurd hs hne
      | cons part rest => rw [hs] at ih; simp [List.intercalate, ← ih]
    · cases hs : splitOn sep cs with
      | nil => exact absurd hs hne
      | cons part rest =>
        rw [hs] at ih
        cases rest <;> simp_all [List.intercalate]

end CounterTrace.Text
