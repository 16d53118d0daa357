import LiveMap.Yaml.Scalar

/-!
# YAML tokens

A text as tokens. Blocks are opened and closed by indentation, and the token of a key is put in
front of it once the colon behind it is found.

## Main definitions

* `Token`: the kinds of tokens.
* `Lexer`: the state between two tokens.
* `Token.scan`: the tokens of a text.
-/

namespace LiveMap.Yaml

inductive Token where
  | documentStart
  | documentEnd
  | blockSequenceStart
  | blockMappingStart
  | blockEnd
  | flowSequenceStart
  | flowSequenceEnd
  | flowMappingStart
  | flowMappingEnd
  | blockEntry
  | flowEntry
  | key
  | value
  | scalar (text : String) (plain : Bool)
  deriving DecidableEq, Repr

/-- A token that is a key if a colon follows on its line. -/
structure PendingKey where
  /-- How many tokens stand before it. -/
  position : Nat
  /-- Whether its line is no part of the block unless a colon follows. -/
  required : Bool
  index : Nat
  line : Nat
  column : Nat

/-- The state between two tokens. -/
structure Lexer where
  cursor : Cursor
  tokens : Array Token := #[]
  /-- The column of the innermost block, before any block is open `-1`. -/
  indent : Int := -1
  outerIndents : List Int := []
  flowDepth : Nat := 0
  keyAllowed : Bool := true
  /-- The pending key of each depth of flow collections. -/
  pending : List (Nat × PendingKey) := []

namespace Lexer

def push (s : Lexer) (t : Token) : Lexer := { s with tokens := s.tokens.push t }

def moveTo (s : Lexer) (c : Cursor) : Lexer := { s with cursor := c }

def inFlow (s : Lexer) : Bool := s.flowDepth ≠ 0

/-- Gives up the pending keys that `gone` picks out; a required one must not be given up. -/
def dropPending (s : Lexer) (gone : Nat × PendingKey → Bool) : Except Error Lexer :=
  if s.pending.any fun p => gone p && p.2.required then .error .missingColon
  else .ok { s with pending := s.pending.filter fun p => !gone p }

def dropCurrent (s : Lexer) : Except Error Lexer :=
  s.dropPending fun p => p.1 = s.flowDepth

/-- Gives up the pending keys on earlier lines, and those more than 1024 characters back. -/
def dropStale (s : Lexer) : Except Error Lexer :=
  s.dropPending fun p => p.2.line ≠ s.cursor.line || p.2.index + 1024 < s.cursor.index

/-- Makes what comes next a pending key, where a key may stand. -/
def savePending (s : Lexer) : Except Error Lexer :=
  if s.keyAllowed then do
    let s ← s.dropCurrent
    let c := s.cursor
    let key : PendingKey :=
      { position := s.tokens.size
        required := !s.inFlow && decide (s.indent = c.column)
        index := c.index
        line := c.line
        column := c.column }
    return { s with pending := (s.flowDepth, key) :: s.pending }
  else .ok s

/-- Closes the blocks that are indented deeper than a column. -/
def closeBlocks (column : Int) (s : Lexer) : Lexer :=
  if s.inFlow then s
  else
    let deeper := (s.indent :: s.outerIndents).takeWhile (column < ·)
    let kept := (s.indent :: s.outerIndents).dropWhile (column < ·)
    { s with
      tokens := s.tokens ++ (deeper.map fun _ => Token.blockEnd).toArray
      indent := kept.headD (-1)
      outerIndents := kept.tail }

/-- Opens a block at a column that is deeper than the innermost one, with the token at a place among
the tokens. -/
def openBlock (s : Lexer) (column : Nat) (t : Token) (position : Nat) : Lexer :=
  if s.indent < column then
    { s with
      tokens := s.tokens.insertIdxIfInBounds position t
      indent := column
      outerIndents := s.indent :: s.outerIndents }
  else s

/-- Passes spaces, comments and line breaks. After a line break outside of flow collections a key
may stand. -/
def skipToToken (s : Lexer) : Lexer :=
  let c := s.cursor.skipSpaces
  let c := if c.peek 0 = some '#' then (c.span fun ch => !isBreak ch).2 else c
  if c.atBreak then
    let next := c.lineBreak.2
    if _h : next.rest.length < s.cursor.rest.length then
      skipToToken { s with cursor := next, keyAllowed := s.keyAllowed || !s.inFlow }
    else s.moveTo c
  else s.moveTo c
termination_by s.cursor.rest.length

/-! ## One token -/

/-- A document mark: all blocks end, and no key stands behind it on its line. -/
def documentMark (s : Lexer) (t : Token) : Except Error Lexer := do
  let s ← (s.closeBlocks (-1)).dropCurrent
  return { (s.push t).moveTo (s.cursor.skip 3) with keyAllowed := false }

/-- The opening bracket of a flow collection, which may itself begin a key. -/
def openFlow (s : Lexer) (t : Token) : Except Error Lexer := do
  let s ← s.savePending
  return { (s.push t).moveTo s.cursor.advance with
    flowDepth := s.flowDepth + 1, keyAllowed := true }

/-- The closing bracket of a flow collection. -/
def closeFlow (s : Lexer) (t : Token) : Except Error Lexer := do
  let s ← s.dropCurrent
  return { (s.push t).moveTo s.cursor.advance with
    flowDepth := s.flowDepth - 1, keyAllowed := false }

/-- The comma between entries of a flow collection. -/
def flowEntry (s : Lexer) : Except Error Lexer := do
  let s ← s.dropCurrent
  return { (s.push .flowEntry).moveTo s.cursor.advance with keyAllowed := true }

/-- The dash before an entry of a block sequence. -/
def blockEntry (s : Lexer) : Except Error Lexer := do
  if !s.inFlow && !s.keyAllowed then throw .sequenceNotAllowed
  let s := if s.inFlow then s else s.openBlock s.cursor.column .blockSequenceStart s.tokens.size
  let s ← s.dropCurrent
  return { (s.push .blockEntry).moveTo s.cursor.advance with keyAllowed := true }

/-- The question mark before a key. -/
def explicitKey (s : Lexer) : Except Error Lexer := do
  if !s.inFlow && !s.keyAllowed then throw .keyNotAllowed
  let s := if s.inFlow then s else s.openBlock s.cursor.column .blockMappingStart s.tokens.size
  let s ← s.dropCurrent
  return { (s.push .key).moveTo s.cursor.advance with keyAllowed := !s.inFlow }

/-- The colon before a value. If a key is pending, its token is put before it, with the start of a
block if it is the first of one. -/
def colon (s : Lexer) : Except Error Lexer := do
  let finish (s : Lexer) : Lexer := (s.push .value).moveTo s.cursor.advance
  match s.pending.lookup s.flowDepth with
  | some key =>
    let s := { s with
      pending := s.pending.filter fun p => p.1 ≠ s.flowDepth
      tokens := s.tokens.insertIdxIfInBounds key.position .key
      keyAllowed := false }
    return finish (if s.inFlow then s else s.openBlock key.column .blockMappingStart key.position)
  | none =>
    if !s.inFlow && !s.keyAllowed then throw .mappingNotAllowed
    let s := if s.inFlow then s else s.openBlock s.cursor.column .blockMappingStart s.tokens.size
    let s ← { s with keyAllowed := !s.inFlow }.dropCurrent
    return finish s

/-- A literal block, behind which a key may stand. -/
def literal (s : Lexer) : Except Error Lexer := do
  let s ← { s with keyAllowed := true }.dropCurrent
  let (text, c) ← literalScalar s.indent s.cursor
  return (s.push (.scalar (String.ofList text) false)).moveTo c

/-- A quoted scalar, which may begin a key. -/
def quoted (s : Lexer) : Except Error Lexer := do
  let s ← s.savePending
  let (text, c) ← quotedScalar s.cursor
  return { (s.push (.scalar (String.ofList text) false)).moveTo c with keyAllowed := false }

/-- A plain scalar, which may begin a key. Behind it a key may stand only on another line. -/
def plain (s : Lexer) : Except Error Lexer := do
  let s ← s.savePending
  let (text, brokeLine, c) := plainScalar s.inFlow (s.indent + 1) s.cursor
  return { (s.push (.scalar (String.ofList text) true)).moveTo c with keyAllowed := brokeLine }

/-- Characters that no plain scalar begins with, unless one of the last three goes on as a word. -/
def indicators : List Char := ",[]\x7b\x7d#&*!|>'\"%@\x60-?:".toList

/-- Whether a plain scalar begins here. -/
def startsPlain (s : Lexer) (ch : Char) : Bool :=
  if isBlank ch || isBreak ch then false
  else if indicators.contains ch then
    !endsWord (s.cursor.peek 1) && (ch = '-' || (!s.inFlow && (ch = '?' || ch = ':')))
  else true

/-- Reads the token that begins with `ch`. -/
def token (s : Lexer) (ch : Char) : Except Error Lexer :=
  let wordEnds := endsWord (s.cursor.peek 1)
  if s.cursor.column = 0 ∧ ch = '%' then .error (.unsupported ch)
  else if s.cursor.column = 0 ∧ s.cursor.atDocumentMark then
    s.documentMark (if ch = '-' then .documentStart else .documentEnd)
  else if ch = '[' then s.openFlow .flowSequenceStart
  else if ch = '\x7b' then s.openFlow .flowMappingStart
  else if ch = ']' then s.closeFlow .flowSequenceEnd
  else if ch = '\x7d' then s.closeFlow .flowMappingEnd
  else if ch = ',' then s.flowEntry
  else if ch = '-' ∧ wordEnds then s.blockEntry
  else if ch = '?' ∧ (s.inFlow ∨ wordEnds) then s.explicitKey
  else if ch = ':' ∧ (s.inFlow ∨ wordEnds) then s.colon
  else if ch = '*' ∨ ch = '&' ∨ ch = '!' then .error (.unsupported ch)
  else if ch = '|' ∧ !s.inFlow then s.literal
  else if ch = '>' ∧ !s.inFlow then .error (.unsupported ch)
  else if ch = '\'' ∨ ch = '"' then s.quoted
  else if s.startsPlain ch then s.plain
  else .error (.unexpectedCharacter ch)

/-- Reads tokens up to the end of the text, where all blocks end. -/
def run (s : Lexer) : Except Error (Array Token) :=
  match s.skipToToken.dropStale with
  | .error e => .error e
  | .ok start =>
    let start := start.closeBlocks start.cursor.column
    match start.cursor.rest with
    | [] => do
      let last ← (start.closeBlocks (-1)).dropCurrent
      return last.tokens
    | ch :: _ =>
      match start.token ch with
      | .error e => .error e
      | .ok next =>
        if _h : next.cursor.rest.length < s.cursor.rest.length then next.run
        else .error (.unexpectedCharacter ch)
termination_by s.cursor.rest.length

end Lexer

/-- Characters that may stand in a text: tab, line breaks, and what is not a control character. -/
def isAllowed (c : Char) : Bool :=
  let n := c.toNat
  n = 0x09 || n = 0x0a || n = 0x0d || n = 0x85 || (0x20 ≤ n && n ≤ 0x7e) ||
    (0xa0 ≤ n && n ≤ 0xfffd) || 0x10000 ≤ n

/-- Every way to end a line as a line feed. -/
def unifyBreaks : List Char → List Char
  | '\r' :: '\n' :: rest => '\n' :: unifyBreaks rest
  | '\r' :: rest => '\n' :: unifyBreaks rest
  | c :: rest => c :: unifyBreaks rest
  | [] => []

/-- The tokens of a text. A byte order mark may stand in front. -/
def Token.scan (text : String) : Except Error (List Token) := do
  let chars := unifyBreaks text.toList
  match chars.find? fun c => !isAllowed c with
  | some c => throw (.unprintable c.toNat)
  | none =>
    let start : Cursor := { rest := chars }
    let start := if chars.head? = some '\ufeff' then start.advance else start
    return (← Lexer.run { cursor := start }).toList

end LiveMap.Yaml
