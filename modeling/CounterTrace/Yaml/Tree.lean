import CounterTrace.Settings.Value
import CounterTrace.Yaml.Token

/-!
# Trees

The tokens of a YAML stream form documents, and each document is one value.  A stream of settings
holds at most one document; without any it counts as an empty plain scalar, as every item, key or
value does that is left out.

Anchors name values for aliases that come behind them.  Inside its own value an anchor stands for
nothing.

    read? cs = some v      cs is a stream of one document with value v
-/

namespace CounterTrace.Yaml

/-- What is left of a stream, and the names in it. -/
structure Builder where
  tokens : List Token
  anchors : List (String × Value) := []
  /-- What tag handles stand for. -/
  handles : List (String × String) := [("!", "!"), ("!!", "tag:yaml.org,2002:")]

/-- Steps that take tokens and may fail. -/
abbrev Build := StateT Builder Option

namespace Build

/-- The value of what is left out. -/
def void : Value := .plain ""

def peek : Build (Option Token) := return (← get).tokens.head?

def skip : Build Unit := modify fun b => { b with tokens := b.tokens.tail }

def accept (t : Token) : Build Bool := do
  if (← peek) == some t then
    skip
    return true
  else return false

def expect (t : Token) : Build Unit := do
  if !(← accept t) then failure

def atOneOf (ts : List Token) : Build Bool := return (← peek).any ts.contains

/-! ## Properties -/

/-- The anchor and the tag of a value. -/
structure Properties where
  anchor : Option String := none
  tag : Option String := none

def tagText (handle rest : String) : Build String := do
  if handle.isEmpty then return rest
  else
    match (← get).handles.lookup handle with
    | some lead => return lead ++ rest
    | none => failure

/-- Reads an anchor and a tag in either order, as far as they are there. -/
def properties : Build Properties := do
  let anchor? : Build (Option String) := do
    match ← peek with
    | some (.anchor name) =>
      skip
      return some name
    | _ => return none
  let tag? : Build (Option String) := do
    match ← peek with
    | some (.tag handle rest) =>
      skip
      return some (← tagText handle rest)
    | _ => return none
  let first ← anchor?
  let tag ← tag?
  let anchor ← if first.isSome then pure first else anchor?
  return ⟨anchor, tag⟩

/-- Names a value. -/
def name (p : Properties) (v : Value) : Build Unit :=
  match p.anchor with
  | none => pure ()
  | some a => modify fun b => { b with anchors := (a, v) :: b.anchors }

def integerTag : String := "tag:yaml.org,2002:int"

/-- The value of a scalar.  A literal marked as an integer counts as plain. -/
def scalarValue (tag : Option String) (style : ScalarStyle) (text : String) : Value :=
  if style == .plain || (style == .literal && tag == some integerTag) then .plain text
  else .text text

/-- Puts a mark on a value if its tag is a private one. -/
def marked (tag : Option String) (v : Value) : Value :=
  match tag.map String.toList with
  | some ('!' :: c :: cs) => .tagged (String.ofList (c :: cs)) v
  | _ => v

/-- Names a value and marks it. -/
def finish (p : Properties) (v : Value) : Build Value := do
  let v := marked p.tag v
  name p v
  return v

/-! ## Values -/

mutual

/-- Reads a value.  Block collections can stand outside of brackets only; items without an
indentation of their own can stand only where `bareItems` says so. -/
def node : Nat → Bool → Bool → Build Value
  | 0, _, _ => failure
  | fuel + 1, block, bareItems => do
    if let some (.alias a) := ← peek then
      skip
      match (← get).anchors.lookup a with
      | some v => return v
      | none => failure
    else
      let p ← properties
      name p .null
      match ← peek with
      | some (.scalar style text) =>
        skip
        finish p (scalarValue p.tag style text)
      | some .flowSequence =>
        skip
        finish p (.list (← flowItems fuel true))
      | some .flowMapping =>
        skip
        finish p (.table (← flowEntries fuel true))
      | t =>
        if t == some .blockEntry && bareItems then finish p (.list (← items fuel true))
        else if t == some .blockSequence && block then
          skip
          finish p (.list (← items fuel false))
        else if t == some .blockMapping && block then
          skip
          finish p (.table (← entries fuel))
        else if p.anchor.isSome || p.tag.isSome then finish p void
        else failure

/-- Reads a value unless one of the given tokens shows that it is left out. -/
def optional : Nat → Bool → Bool → List Token → Build Value
  | 0, _, _, _ => failure
  | fuel + 1, block, bareItems, stops => do
    if ← atOneOf stops then return void else node fuel block bareItems

/-- Reads the items behind their dashes.  Bare ones end with whatever is no dash. -/
def items : Nat → Bool → Build (List Value)
  | 0, _ => failure
  | fuel + 1, bare => do
    if ← accept .blockEntry then
      let stops : List Token :=
        if bare then [.blockEntry, .key, .value, .blockEnd] else [.blockEntry, .blockEnd]
      let v ← optional fuel true false stops
      return v :: (← items fuel bare)
    else if bare then return []
    else
      expect .blockEnd
      return []

/-- Reads the entries of a block mapping. -/
def entries : Nat → Build (List (Value × Value))
  | 0 => failure
  | fuel + 1 => do
    if ← accept .key then
      let stops : List Token := [.key, .value, .blockEnd]
      let k ← optional fuel true true stops
      let v ← if ← accept .value then optional fuel true true stops else pure void
      return (k, v) :: (← entries fuel)
    else
      expect .blockEnd
      return []

/-- Reads the items between brackets.  An item may be a single entry without braces. -/
def flowItems : Nat → Bool → Build (List Value)
  | 0, _ => failure
  | fuel + 1, first => do
    if ← accept .flowSequenceEnd then return []
    else
      if !first then expect .flowEntry
      if ← accept .flowSequenceEnd then return []
      else if ← accept .key then
        let k ← optional fuel false false [.value, .flowEntry, .flowSequenceEnd]
        let v ← if ← accept .value then optional fuel false false [.flowEntry, .flowSequenceEnd]
          else pure void
        return .table [(k, v)] :: (← flowItems fuel false)
      else
        let v ← node fuel false false
        return v :: (← flowItems fuel false)

/-- Reads the entries between braces. -/
def flowEntries : Nat → Bool → Build (List (Value × Value))
  | 0, _ => failure
  | fuel + 1, first => do
    if ← accept .flowMappingEnd then return []
    else
      if !first then expect .flowEntry
      if ← accept .flowMappingEnd then return []
      else if ← accept .key then
        let k ← optional fuel false false [.value, .flowEntry, .flowMappingEnd]
        let v ← if ← accept .value then optional fuel false false [.flowEntry, .flowMappingEnd]
          else pure void
        return (k, v) :: (← flowEntries fuel false)
      else
        let k ← node fuel false false
        return (k, void) :: (← flowEntries fuel false)

end

/-! ## Documents -/

/-- Reads the directives in front of a document. -/
def directives : Nat → Bool → List String → Build Unit
  | 0, _, _ => failure
  | fuel + 1, versioned, handles => do
    match ← peek with
    | some (.version major minor) =>
      if versioned || major != 1 || !(minor == 1 || minor == 2) then failure
      else
        skip
        directives fuel true handles
    | some (.tagHandle handle lead) =>
      if handles.contains handle then failure
      else
        skip
        modify fun b => { b with handles := (handle, lead) :: b.handles }
        directives fuel versioned (handle :: handles)
    | _ => return ()

/-- Whether a document has to begin with its mark here, or is empty. -/
def isDocumentToken : Option Token → Bool
  | none => true
  | some t =>
    match t with
    | .version _ _ => true
    | .tagHandle _ _ => true
    | .documentStart => true
    | .documentEnd => true
    | _ => false

/-- Takes the marks at the end of a document. -/
def documentEnds : Build Unit :=
  modify fun b => { b with tokens := b.tokens.dropWhile (· == .documentEnd) }

/-- Reads the only document of a stream. -/
def document : Build Value := do
  let tokens := (← get).tokens
  let fuel := 3 * tokens.length + 3
  if tokens.isEmpty then return void
  else
    let v ←
      if isDocumentToken tokens.head? && tokens.head? != some .documentEnd then
        directives fuel false []
        expect .documentStart
        if isDocumentToken (← peek) then pure void else node fuel true false
      else node fuel true false
    documentEnds
    if (← peek).isSome then failure
    return v

end Build

/-- Reads a stream of one document. -/
def read? (cs : List Char) : Option Value := do
  let tokens ← scan cs
  let (v, _) ← Build.document.run { tokens := tokens }
  return v

end CounterTrace.Yaml
