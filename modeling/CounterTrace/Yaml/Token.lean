import CounterTrace.Yaml.Scalar

/-!
# Tokens

A YAML text is cut into tokens.  Indentation becomes tokens too: a collection of lines opens where
its column is first reached and closes where a line stands further out.

What comes in front of a colon is a key only in hindsight.  So the place of whatever may turn out
to be one is remembered, for each nesting of brackets, and the tokens for the key are put in there
when the colon comes.  A key has to lie on one line and has to be short.

    scan cs = some ts      cs is a stream of well-formed tokens
-/

namespace CounterTrace.Yaml

inductive Token where
  | version (major minor : Nat)
  | tagHandle (handle lead : String)
  | documentStart
  | documentEnd
  | blockSequence
  | blockMapping
  | blockEnd
  | flowSequence
  | flowSequenceEnd
  | flowMapping
  | flowMappingEnd
  | blockEntry
  | flowEntry
  | key
  | value
  | alias (name : String)
  | anchor (name : String)
  | tag (handle rest : String)
  | scalar (style : ScalarStyle) (text : String)
  deriving DecidableEq, Repr

/-- A place where a key may have begun. -/
structure PossibleKey where
  /-- Number of the token that it begins with. -/
  token : Nat
  index : Nat
  line : Nat
  column : Nat
  /-- Whether nothing but a key can stand there. -/
  required : Bool
  deriving Repr

/-- How far a text has been cut into tokens. -/
structure Layout where
  cursor : Cursor
  tokens : Array Token := #[]
  /-- Columns of the open block collections, innermost first. -/
  indents : List Nat := []
  /-- What may be a key, for each open bracket, innermost first, and for the text around them. -/
  keys : List (Option PossibleKey) := [none]
  /-- Whether a key may begin here. -/
  keyAllowed : Bool := true

namespace Layout

def keyLength : Nat := 1024

/-- Whether brackets are open. -/
def inFlow (l : Layout) : Bool := 1 < l.keys.length

/-- Column of the innermost block collection. -/
def indent (l : Layout) : Option Nat := l.indents.head?

def push (l : Layout) (t : Token) : Layout := { l with tokens := l.tokens.push t }

/-- Adds a token in front of the one with a given number. -/
def insert (l : Layout) (i : Nat) (t : Token) : Layout :=
  { l with tokens := l.tokens.insertIdxIfInBounds i t }

def skip (l : Layout) (n : Nat) : Layout := { l with cursor := l.cursor.along n }

/-- Says whether a key may begin behind this. -/
def allowKey (l : Layout) (b : Bool) : Layout := { l with keyAllowed := b }

/-! ## Possible keys -/

/-- Gives up what may be a key; fails if nothing else can be. -/
def dropKey (l : Layout) : Option Layout :=
  match l.keys with
  | some k :: rest => if k.required then none else some { l with keys := none :: rest }
  | _ => some l

/-- Remembers the place as one where a key may begin. -/
def saveKey (l : Layout) : Option Layout :=
  if l.keyAllowed then
    let c := l.cursor
    let required := !l.inFlow && l.indent == some c.column
    let k : PossibleKey := ⟨l.tokens.size, c.index, c.line, c.column, required⟩
    l.dropKey.map fun l => { l with keys := some k :: l.keys.tail }
  else some l

/-- Whether a place is too far away for a key. -/
def isStale (c : Cursor) (k : PossibleKey) : Bool :=
  k.line < c.line || k.index + keyLength < c.index

/-- Gives up all places that are too far away; fails if one had to be a key. -/
def dropStale (l : Layout) : Option Layout :=
  let stale (k : Option PossibleKey) : Bool := k.any (isStale l.cursor)
  if l.keys.any fun k => stale k && k.any (·.required) then none
  else some { l with keys := l.keys.map fun k => if stale k then none else k }

/-! ## Indentation -/

/-- Opens a block collection at a column, unless one is open there. -/
def openAt (l : Layout) (column : Nat) (place : Option Nat) (t : Token) : Layout :=
  if l.inFlow || l.indent.any (column ≤ ·) then l
  else
    let l := { l with indents := column :: l.indents }
    match place with
    | some i => l.insert i t
    | none => l.push t

/-- Closes the block collections that stand further in than a column, or all of them. -/
def closeTo (column : Option Nat) (l : Layout) : Layout :=
  if l.inFlow then l
  else
    let further (i : Nat) : Bool := column.all (· < i)
    { l with
      tokens := l.tokens ++ ((l.indents.takeWhile further).map fun _ => Token.blockEnd).toArray
      indents := l.indents.dropWhile further }

/-! ## Blanks and comments -/

/-- Goes on to the next token, over blanks, comments and line ends.  A new line may begin a key. -/
def toToken : Nat → Layout → Layout
  | 0, l => l
  | fuel + 1, l =>
    let c := l.cursor
    let c := if c.column == 0 && c.next == some byteOrderMark then c.along 1 else c
    let c := c.alongWhile fun d => d == ' ' || (d == '\t' && (l.inFlow || !l.keyAllowed))
    let c := if c.next == some '#' then c.alongWhile (!isBreak ·) else c
    if c.lineEnd.isEmpty then { l with cursor := c }
    else toToken fuel { l with cursor := c.overLineEnd, keyAllowed := l.keyAllowed || !l.inFlow }

/-! ## Names -/

def isNameChar (c : Char) : Bool := c.isAlphanum || c == '_' || c == '-'

def isTagChar (c : Char) : Bool := isNameChar c || ";/?:@&=+$.%!~*'()".toList.contains c

def endsAnchor (cs : List Char) : Bool :=
  endsWord cs || cs.head?.any "?:,]\x7d%@\x60".toList.contains

def endsTag (flow : Bool) (cs : List Char) : Bool := endsWord cs || (flow && cs.head? == some ',')

/-- Reads the name of an anchor or an alias behind its mark. -/
def fetchName (l : Layout) (make : String → Token) : Option Layout := do
  let l := (← l.saveKey).allowKey false
  let name := (l.cursor.rest.drop 1).takeWhile isNameChar
  let next := l.skip (name.length + 1)
  if !name.isEmpty && endsAnchor next.cursor.rest then
    some (next.push (make (String.ofList name)))
  else none

/-- Reads a tag: its handle, the rest of it, and the number of characters. -/
def readTag (cs : List Char) : Option (List Char × List Char × Nat) :=
  match cs with
  | '!' :: '<' :: more =>
    let uri := more.takeWhile fun c => isTagChar c || [',', '[', ']'].contains c
    if !uri.isEmpty && (more.drop uri.length).head? == some '>' then
      some ([], uri, uri.length + 3)
    else none
  | _ =>
    let name := (cs.drop 1).takeWhile isNameChar
    let behind := (cs.drop 1).drop name.length
    if behind.head? == some '!' then
      let rest := (behind.drop 1).takeWhile isTagChar
      if rest.isEmpty then none
      else some ('!' :: name ++ ['!'], rest, 2 + name.length + rest.length)
    else
      let rest := (cs.drop 1).takeWhile isTagChar
      if rest.isEmpty then some ([], ['!'], 1) else some (['!'], rest, 1 + rest.length)

def fetchTag (l : Layout) : Option Layout := do
  let l := (← l.saveKey).allowKey false
  let (handle, rest, n) ← readTag l.cursor.rest
  let next := l.skip n
  if endsTag l.inFlow next.cursor.rest then
    some (next.push (.tag (String.ofList handle) (String.ofList rest)))
  else none

/-! ## Directives and documents -/

/-- The number that some digits stand for. -/
def digits? (cs : List Char) : Option Nat :=
  if cs.isEmpty || 9 < cs.length then none
  else some (cs.foldl (fun n c => n * 10 + (c.toNat - '0'.toNat)) 0)

/-- Reads a version behind its directive. -/
def readVersion (cs : List Char) : Option (Token × Nat) := do
  let major := cs.takeWhile Char.isDigit
  let behind := cs.drop major.length
  let minor := (behind.drop 1).takeWhile Char.isDigit
  if behind.head? == some '.' then
    some (.version (← digits? major) (← digits? minor), major.length + 1 + minor.length)
  else none

/-- Reads a tag handle and what it stands for behind their directive. -/
def readHandle (cs : List Char) : Option (Token × Nat) :=
  let name := (cs.drop 1).takeWhile isNameChar
  let behind := (cs.drop 1).drop name.length
  let closed := behind.head? == some '!'
  let handle := '!' :: name ++ (if closed then ['!'] else [])
  let blanks := (cs.drop handle.length).takeWhile isGap
  let lead := (cs.drop (handle.length + blanks.length)).takeWhile fun c =>
    isTagChar c || [',', '[', ']'].contains c
  let n := handle.length + blanks.length + lead.length
  if cs.head? == some '!' && (closed || name.isEmpty) && !blanks.isEmpty && !lead.isEmpty &&
      endsWord (cs.drop n) then
    some (.tagHandle (String.ofList handle) (String.ofList lead), n)
  else none

def fetchDirective (l : Layout) : Option Layout := do
  let l := (← (l.closeTo none).dropKey).allowKey false
  let name := (l.cursor.rest.drop 1).takeWhile isNameChar
  let l := { l with cursor := (l.cursor.along (name.length + 1)).alongWhile isGap }
  let (t, n) ←
    if name == "YAML".toList then readVersion l.cursor.rest
    else if name == "TAG".toList then readHandle l.cursor.rest
    else none
  let c := (l.cursor.along n).alongWhile isGap
  let c := if c.next == some '#' then c.alongWhile (!isBreak ·) else c
  if c.atEnd || !c.lineEnd.isEmpty then some { l.push t with cursor := c.overLineEnd } else none

def fetchDocumentMark (l : Layout) : Option Layout := do
  let l := (← (l.closeTo none).dropKey).allowKey false
  let t := if l.cursor.next == some '-' then Token.documentStart else .documentEnd
  some ((l.skip 3).push t)

/-! ## Collections -/

def fetchOpen (l : Layout) (t : Token) : Option Layout := do
  let l ← l.saveKey
  some (({ l with keys := none :: l.keys }.allowKey true |>.skip 1).push t)

def fetchClose (l : Layout) (t : Token) : Option Layout := do
  let l ← l.dropKey
  let l := if l.inFlow then { l with keys := l.keys.tail } else l
  some (((l.allowKey false).skip 1).push t)

def fetchComma (l : Layout) : Option Layout := do
  some ((((← l.dropKey).allowKey true).skip 1).push .flowEntry)

def fetchDash (l : Layout) : Option Layout := do
  if !l.inFlow && !l.keyAllowed then none
  else
    let l ← (l.openAt l.cursor.column none .blockSequence).dropKey
    some (((l.allowKey true).skip 1).push .blockEntry)

def fetchKey (l : Layout) : Option Layout := do
  if !l.inFlow && !l.keyAllowed then none
  else
    let l ← (l.openAt l.cursor.column none .blockMapping).dropKey
    some (((l.allowKey !l.inFlow).skip 1).push .key)

def fetchColon (l : Layout) : Option Layout :=
  match l.keys with
  | some k :: rest =>
    let l := { l with keys := none :: rest }.insert k.token .key
    some ((((l.openAt k.column (some k.token) .blockMapping).allowKey false).skip 1).push .value)
  | _ =>
    if !l.inFlow && !l.keyAllowed then none
    else
      let l := l.openAt l.cursor.column none .blockMapping
      some (((l.allowKey !l.inFlow).skip 1).push .value)

/-! ## Scalars -/

/-- Adds a scalar and goes on behind it. -/
def pushScalar (l : Layout) (style : ScalarStyle) (text : List Char) (c : Cursor) : Layout :=
  { l with cursor := c }.push (.scalar style (String.ofList text))

def fetchQuoted (l : Layout) (style : ScalarStyle) (quote : Char) : Option Layout := do
  let l := (← l.saveKey).allowKey false
  let (text, c) ← quoted? style quote l.cursor
  some (l.pushScalar style text c)

def fetchPlain (l : Layout) : Option Layout := do
  let l ← l.saveKey
  let s ← plain? l.inFlow ((l.indent.map (· + 1)).getD 0) l.cursor
  some ((l.allowKey s.endsLine).pushScalar .plain s.text s.cursor)

def fetchBlock (l : Layout) (style : ScalarStyle) : Option Layout := do
  let l := (← l.dropKey).allowKey true
  let (text, c) ← block? (style == .folded) l.indent l.cursor
  some (l.pushScalar style text c)

/-- Characters that cannot begin a plain scalar. -/
def indicators : List Char := "-?:,[]\x7b\x7d#&*!|>'\"%@\x60".toList

def beginsPlain (flow : Bool) : List Char → Bool
  | [] => false
  | c :: cs =>
    (!isGapOrBreak c && !indicators.contains c) ||
      (c == '-' && !cs.head?.any isGap) ||
      (!flow && (c == '?' || c == ':') && !endsWord cs)

/-! ## The whole text -/

/-- Reads the token at the cursor. -/
def fetch (l : Layout) : Option Layout :=
  let c := l.cursor
  let flow := l.inFlow
  let cs := c.rest.drop 1
  if c.column == 0 && c.next == some '%' then l.fetchDirective
  else if c.atDocumentMark then l.fetchDocumentMark
  else
    match c.next with
    | some '[' => l.fetchOpen .flowSequence
    | some '\x7b' => l.fetchOpen .flowMapping
    | some ']' => l.fetchClose .flowSequenceEnd
    | some '\x7d' => l.fetchClose .flowMappingEnd
    | some ',' => l.fetchComma
    | some '*' => l.fetchName .alias
    | some '&' => l.fetchName .anchor
    | some '!' => l.fetchTag
    | some '\'' => l.fetchQuoted .single '\''
    | some '"' => l.fetchQuoted .double '"'
    | some d =>
      if d == '-' && endsWord cs then l.fetchDash
      else if d == '?' && (flow || endsWord cs) then l.fetchKey
      else if d == ':' && (flow || endsWord cs) then l.fetchColon
      else if d == '|' && !flow then l.fetchBlock .literal
      else if d == '>' && !flow then l.fetchBlock .folded
      else if beginsPlain flow c.rest then l.fetchPlain
      else none
    | none => none

def fetchAll : Nat → Layout → Option (Array Token)
  | 0, _ => none
  | fuel + 1, l => do
    let l ← (l.toToken (l.cursor.rest.length + 1)).dropStale
    if l.cursor.atEnd then
      let l ← (l.closeTo none).dropKey
      some l.tokens
    else fetchAll fuel (← (l.closeTo (some l.cursor.column)).fetch)

end Layout

/-- The tokens of a text. -/
def scan (cs : List Char) : Option (List Token) :=
  if cs.all isAllowed then
    let cs := if cs.head? == some byteOrderMark then cs.tail else cs
    (Layout.fetchAll (cs.length + 1) { cursor := { rest := cs } }).map Array.toList
  else none

end CounterTrace.Yaml
