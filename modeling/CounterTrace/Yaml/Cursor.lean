/-!
# Cursors

A cursor is a place in a YAML text, with the characters from there on.  Lines end with a line feed,
a carriage return, both, or one of three further characters; the last two of these are kept in
texts and all others are read as a line feed.

    c.past cs      the place behind `cs`, if `c.rest = cs ++ …`
    c.gap          the blanks and line ends at a place
-/

namespace CounterTrace.Yaml

/-! ## Characters -/

/-- Whether a text may hold the character. -/
def isAllowed (c : Char) : Bool :=
  let n := c.toNat
  n == 0x09 || n == 0x0A || n == 0x0D || (0x20 ≤ n && n ≤ 0x7E) || n == 0x85 ||
    (0xA0 ≤ n && n ≤ 0xD7FF) || (0xE000 ≤ n && n ≤ 0xFFFD) || 0x10000 ≤ n

/-- The mark that may stand in front of a text. -/
def byteOrderMark : Char := '\ufeff'

/-- Spaces and tabs. -/
def isGap (c : Char) : Bool := c == ' ' || c == '\t'

def isBreak (c : Char) : Bool :=
  c == '\n' || c == '\r' || c == '\u0085' || c == '\u2028' || c == '\u2029'

/-- Characters that end a word. -/
def isGapOrBreak (c : Char) : Bool := isGap c || isBreak c

def endsWord : List Char → Bool
  | [] => true
  | c :: _ => isGapOrBreak c

/-- What a line end is read as. -/
def breakText (c : Char) : Char := if c == '\u2028' || c == '\u2029' then c else '\n'

/-- The line ends of a text. -/
def breaks : List Char → List Char
  | [] => []
  | '\r' :: '\n' :: cs => '\n' :: breaks cs
  | c :: cs => if isBreak c then breakText c :: breaks cs else breaks cs

/-! ## Places -/

/-- A place in a text. -/
structure Cursor where
  rest : List Char
  /-- Characters in front of the place. -/
  index : Nat := 0
  line : Nat := 0
  column : Nat := 0
  deriving Repr

namespace Cursor

def atEnd (c : Cursor) : Bool := c.rest.isEmpty

def next (c : Cursor) : Option Char := c.rest.head?

/-- Goes over some characters of the line. -/
def along (n : Nat) (c : Cursor) : Cursor :=
  { c with rest := c.rest.drop n, index := c.index + n, column := c.column + n }

/-- Goes over characters of the line as long as they are of one kind. -/
def alongWhile (p : Char → Bool) (c : Cursor) : Cursor := c.along (c.rest.takeWhile p).length

/-- Goes over characters that are at the place. -/
def past : List Char → Cursor → Cursor
  | [], c => c
  | '\r' :: '\n' :: cs, c =>
    past cs { rest := c.rest.drop 2, index := c.index + 2, line := c.line + 1, column := 0 }
  | d :: cs, c =>
    if isBreak d then
      past cs { rest := c.rest.drop 1, index := c.index + 1, line := c.line + 1, column := 0 }
    else past cs (c.along 1)

/-- The line end at the place, as two characters or one or none. -/
def lineEnd (c : Cursor) : List Char :=
  match c.rest with
  | '\r' :: '\n' :: _ => ['\r', '\n']
  | d :: _ => if isBreak d then [d] else []
  | [] => []

/-- Goes over the line end at the place. -/
def overLineEnd (c : Cursor) : Cursor := c.past c.lineEnd

/-- Whether a line with one of the two document marks begins here. -/
def atDocumentMark (c : Cursor) : Bool :=
  c.column == 0 &&
    match c.rest with
    | '-' :: '-' :: '-' :: cs => endsWord cs
    | '.' :: '.' :: '.' :: cs => endsWord cs
    | _ => false

/-! ## Gaps -/

/-- Blanks, and the line ends among them. -/
structure Gap where
  /-- Blanks in front of the first line end. -/
  blanks : List Char
  lineEnds : List Char
  deriving Repr

/-- The blanks and line ends at a place, as they stand. -/
def gapText (c : Cursor) : List Char := c.rest.takeWhile isGapOrBreak

/-- The blanks and line ends at a place. -/
def gap (c : Cursor) : Gap := ⟨c.gapText.takeWhile isGap, breaks c.gapText⟩

/-- What a gap between two words is read as.  One line feed is a space, more of them are one less;
a line end of another kind stays. -/
def Gap.folded (g : Gap) : List Char :=
  match g.lineEnds with
  | [] => g.blanks
  | '\n' :: more => if more.isEmpty then [' '] else more
  | ends => ends

end Cursor

end CounterTrace.Yaml
