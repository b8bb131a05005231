import CounterTrace.Yaml.Cursor

/-!
# Scalars

The texts of scalars in all five styles: plain, between single or double quotes, and as a literal
or folded block of lines.  Each reader gives the text and the place behind it.

* Words are kept, gaps between them are folded.
* Single quotes know one escape, the doubled quote; double quotes know those of `escape?`.
* A block keeps its lines.  Folding joins those lines that begin with no blank.
-/

namespace CounterTrace.Yaml

/-- How a scalar is written. -/
inductive ScalarStyle where
  | plain
  | single
  | double
  | literal
  | folded
  deriving DecidableEq, Repr

/-! ## Escapes -/

def hexDigit? (c : Char) : Option Nat :=
  if '0' ≤ c && c ≤ '9' then some (c.toNat - '0'.toNat)
  else if 'a' ≤ c && c ≤ 'f' then some (c.toNat - 'a'.toNat + 10)
  else if 'A' ≤ c && c ≤ 'F' then some (c.toNat - 'A'.toNat + 10)
  else none

/-- The character with a hexadecimal number of `n` digits. -/
def numbered? (n : Nat) (cs : List Char) : Option (Char × List Char) := do
  let digits := cs.take n
  if digits.length < n then none
  else
    let code ← digits.foldlM (fun acc d => (hexDigit? d).map (acc * 16 + ·)) 0
    if code.isValidChar then some (Char.ofNat code, cs.drop n) else none

/-- The characters that a single character behind a backslash stands for. -/
def escapes : List (Char × Char) :=
  [('0', '\x00'), ('a', '\x07'), ('b', '\x08'), ('t', '\t'), ('\t', '\t'), ('n', '\n'),
    ('v', '\x0b'), ('f', '\x0c'), ('r', '\r'), ('e', '\x1b'), (' ', ' '), ('"', '"'), ('/', '/'),
    ('\\', '\\'), ('N', '\u0085'), ('_', '\u00a0'), ('L', '\u2028'), ('P', '\u2029')]

/-- Reads an escape behind its backslash. -/
def escape? : List Char → Option (Char × List Char)
  | [] => none
  | 'x' :: cs => numbered? 2 cs
  | 'u' :: cs => numbered? 4 cs
  | 'U' :: cs => numbered? 8 cs
  | c :: cs => (escapes.lookup c).map fun d => (d, cs)

/-! ## Quoted scalars -/

/-- What ends a run of characters between quotes. -/
inductive QuotedStop where
  /-- A quote, a blank or a line end, or the end of the text. -/
  | word
  /-- A backslash in front of a line end. -/
  | escapedBreak
  deriving DecidableEq, Repr

/-- A run of characters between single quotes, and the number of those that are read. -/
def singleWord : List Char → List Char × Nat
  | '\'' :: '\'' :: cs =>
    let (word, n) := singleWord cs
    ('\'' :: word, n + 2)
  | [] => ([], 0)
  | c :: cs =>
    if c == '\'' || isGapOrBreak c then ([], 0)
    else
      let (word, n) := singleWord cs
      (c :: word, n + 1)

/-- A run of characters between double quotes, the number of those that are read, and what ends
the run. -/
def doubleWord : Nat → List Char → Option (List Char × Nat × QuotedStop)
  | 0, _ => none
  | _ + 1, [] => some ([], 0, .word)
  | fuel + 1, c :: cs =>
    if c == '"' || isGapOrBreak c then some ([], 0, .word)
    else if c == '\\' then
      if cs.head?.any isBreak then some ([], 1, .escapedBreak)
      else
        match escape? cs with
        | none => none
        | some (d, rest) =>
          (doubleWord fuel rest).map fun (word, n, stop) =>
            (d :: word, n + 1 + (cs.length - rest.length), stop)
    else (doubleWord fuel cs).map fun (word, n, stop) => (c :: word, n + 1, stop)

/-- A run of characters between quotes. -/
def quotedWord (style : ScalarStyle) (c : Cursor) : Option (List Char × Nat × QuotedStop) :=
  if style == .single then
    let (word, n) := singleWord c.rest
    some (word, n, .word)
  else doubleWord (c.rest.length + 1) c.rest

/-- Reads a quoted scalar behind its first quote. -/
def quotedRest (style : ScalarStyle) (quote : Char) :
    Nat → List Char → Cursor → Option (List Char × Cursor)
  | 0, _, _ => none
  | fuel + 1, acc, c => do
    if c.atDocumentMark || c.atEnd then none
    else
      let (word, n, stop) ← quotedWord style c
      let acc := acc ++ word
      let c := c.along n
      match stop with
      | .escapedBreak =>
        -- The line end is left out, and with it the blanks of the next line.
        let c := c.overLineEnd
        if c.next == some quote then some (acc, c.along 1)
        else quotedRest style quote fuel (acc ++ c.gap.lineEnds) (c.past c.gapText)
      | .word =>
        if c.next == some quote then some (acc, c.along 1)
        else quotedRest style quote fuel (acc ++ c.gap.folded) (c.past c.gapText)

/-- Reads a quoted scalar at its first quote. -/
def quoted? (style : ScalarStyle) (quote : Char) (c : Cursor) : Option (List Char × Cursor) :=
  quotedRest style quote (c.rest.length + 1) [] (c.along 1)

/-! ## Plain scalars -/

/-- Characters that end a word inside brackets. -/
def isFlowIndicator (c : Char) : Bool := [',', '[', ']', '\x7b', '\x7d'].contains c

/-- A word of a plain scalar.  Inside brackets a colon may not touch an indicator. -/
def plainWord (flow : Bool) : List Char → Option (List Char)
  | [] => some []
  | c :: cs =>
    if isGapOrBreak c then some []
    else if c == ':' && flow && cs.head?.any fun d => d == '?' || isFlowIndicator d then
      none
    else if c == ':' && endsWord cs then some []
    else if flow && isFlowIndicator c then some []
    else (plainWord flow cs).map (c :: ·)

/-- Whether a tab stands in front of column `indent` on a line that begins in this text. -/
def tabInIndent (indent : Nat) : Option Nat → List Char → Bool
  | _, [] => false
  | col, c :: cs =>
    if isBreak c then tabInIndent indent (some 0) cs
    else
      match col with
      | none => tabInIndent indent none cs
      | some n => (c == '\t' && n < indent) || tabInIndent indent (some (n + 1)) cs

/-- A plain scalar: its text, the place behind it and the gap that follows, and whether the gap
holds a line end. -/
structure PlainScalar where
  text : List Char
  cursor : Cursor
  endsLine : Bool

/-- Reads words with the gaps between them.  `between` is the gap in front of the next word. -/
def plainWords (flow : Bool) (indent : Nat) :
    Nat → List Char → Option Cursor.Gap → Cursor → Option PlainScalar
  | 0, _, _, _ => none
  | fuel + 1, acc, between, c => do
    let endsLine := between.any fun g => !g.lineEnds.isEmpty
    if c.atDocumentMark || c.next == some '#' then some ⟨acc, c, endsLine⟩
    else
      let word ← plainWord flow c.rest
      if word.isEmpty then some ⟨acc, c, endsLine⟩
      else
        let acc := acc ++ (between.map Cursor.Gap.folded).getD [] ++ word
        let c := c.along word.length
        let run := c.gapText
        if run.isEmpty then some ⟨acc, c, false⟩
        else if tabInIndent indent none run then none
        else
          let g := c.gap
          let c := c.past run
          if !flow && c.column < indent then some ⟨acc, c, !g.lineEnds.isEmpty⟩
          else plainWords flow indent fuel acc (some g) c

/-- Reads a plain scalar whose further lines begin at column `indent` or behind it. -/
def plain? (flow : Bool) (indent : Nat) (c : Cursor) : Option PlainScalar :=
  plainWords flow indent (c.rest.length + 1) [] none c

/-! ## Block scalars -/

/-- What happens to the line ends behind the last line of a block. -/
inductive Chomping where
  | strip
  | clip
  | keep
  deriving DecidableEq, Repr

/-- How a block is announced. -/
structure BlockHeader where
  chomping : Chomping := .clip
  /-- Columns that the lines stand further in than their parent. -/
  increment : Option Nat := none
  deriving Repr

def chomping? (c : Char) : Option Chomping :=
  if c == '+' then some .keep else if c == '-' then some .strip else none

def increment? (c : Char) : Option Nat :=
  if '1' ≤ c && c ≤ '9' then some (c.toNat - '0'.toNat) else none

/-- Reads a chomping and an increment in either order.  Gives the number of characters read. -/
def blockHeader (cs : List Char) : BlockHeader × Nat :=
  match cs with
  | [] => ({}, 0)
  | a :: rest =>
    match chomping? a with
    | some ch =>
      match rest.head?.bind increment? with
      | some n => (⟨ch, some n⟩, 2)
      | none => (⟨ch, none⟩, 1)
    | none =>
      match increment? a with
      | none => ({}, 0)
      | some n =>
        match rest.head?.bind chomping? with
        | some ch => (⟨ch, some n⟩, 2)
        | none => (⟨.clip, some n⟩, 1)

/-- Goes over indentation and empty lines.  Gives the line ends and the deepest column.  Without a
known indentation all spaces in front of a line count. -/
def blockGap (indent : Option Nat) : Nat → Nat → Cursor → Option (List Char × Nat × Cursor)
  | 0, _, _ => none
  | fuel + 1, deepest, c => do
    let spaces := (c.rest.takeWhile (· == ' ')).length
    let c := c.along (match indent with
      | some i => min spaces (i - c.column)
      | none => spaces)
    let deepest := max deepest c.column
    let inside := match indent with
      | some i => c.column < i
      | none => true
    if inside && c.next == some '\t' then none
    else if c.lineEnd.isEmpty then some ([], deepest, c)
    else
      let (ends, deepest, rest) ← blockGap indent fuel deepest c.overLineEnd
      some (breaks c.lineEnd ++ ends, deepest, rest)

/-- The lines of a block that have been read. -/
structure BlockText where
  text : List Char := []
  /-- The end of the last line. -/
  lineEnd : List Char := []
  /-- The ends of the empty lines behind it. -/
  emptyEnds : List Char := []
  /-- Whether the last line begins with a blank. -/
  blankLead : Bool := false

def BlockText.addLine (b : BlockText) (folded : Bool) (line lineEnd : List Char) : BlockText :=
  let blank := line.head?.any isGap
  let joint :=
    if folded && b.lineEnd == ['\n'] && !b.blankLead && !blank then
      if b.emptyEnds.isEmpty then [' '] else []
    else b.lineEnd
  { text := b.text ++ joint ++ b.emptyEnds ++ line
    lineEnd := lineEnd
    blankLead := blank }

def BlockText.chomped (b : BlockText) : Chomping → List Char
  | .strip => b.text
  | .clip => b.text ++ b.lineEnd
  | .keep => b.text ++ b.lineEnd ++ b.emptyEnds

/-- Reads the lines that stand at column `indent`. -/
def blockLines (folded : Bool) (indent : Nat) :
    Nat → BlockText → Cursor → Option (BlockText × Cursor)
  | 0, _, _ => none
  | fuel + 1, b, c => do
    if c.column != indent || c.atEnd then some (b, c)
    else
      let line := c.rest.takeWhile (!isBreak ·)
      let c := c.along line.length
      let b := b.addLine folded line (breaks c.lineEnd)
      let c := c.overLineEnd
      let (ends, _, c) ← blockGap (some indent) (c.rest.length + 1) 0 c
      blockLines folded indent fuel { b with emptyEnds := ends } c

/-- Reads a block scalar at its indicator.  `parent` is the column of the collection around it, if
there is one. -/
def block? (folded : Bool) (parent : Option Nat) (c : Cursor) : Option (List Char × Cursor) := do
  let c := c.along 1
  let (header, n) := blockHeader c.rest
  let c := (c.along n).alongWhile isGap
  let c := if c.next == some '#' then c.alongWhile (!isBreak ·) else c
  if !c.atEnd && c.lineEnd.isEmpty then none
  else
    let c := c.overLineEnd
    let least := (parent.map (· + 1)).getD 0
    let known := header.increment.map ((parent.getD 0) + ·)
    let (ends, deepest, c) ← blockGap known (c.rest.length + 1) 0 c
    let indent := known.getD (max (max deepest least) 1)
    let (b, c) ← blockLines folded indent (c.rest.length + 1) { emptyEnds := ends } c
    some (b.chomped header.chomping, c)

end CounterTrace.Yaml
