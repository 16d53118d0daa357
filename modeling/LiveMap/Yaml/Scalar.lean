import LiveMap.Yaml.Cursor
import LiveMap.Yaml.Error

/-!
# Scalars in a YAML text

The three ways to write a scalar: plain, between quotes, and as a literal block. Each reader takes
the scalar ahead and gives its text with the place after it.

## Main definitions

* `plainScalar`: words up to an indicator, lines folded.
* `quotedScalar`: text between single or double quotes, lines folded.
* `literalScalar`: indented lines kept as they are.
-/

namespace LiveMap.Yaml

open Cursor

/-! ## Plain scalars -/

/-- How many characters ahead belong to one plain word. -/
def plainLength (inFlow : Bool) : List Char → Nat
  | [] => 0
  | ch :: rest =>
    let colonEnds := endsWord rest.head? || (inFlow && rest.head?.any (",[]\x7b\x7d".contains ·))
    if isBlank ch || isBreak ch || (ch = ':' && colonEnds) ||
        (inFlow && ",?[]\x7b\x7d".contains ch) then 0
    else 1 + plainLength inFlow rest

/-- The line breaks and spaces after the first break of a fold, and nothing if a document mark
follows one of them. -/
def plainBreaks (c : Cursor) : Option (List Char) × Cursor :=
  let go (next : Cursor) (found : List Char) : Option (List Char) × Cursor :=
    if _h : next.rest.length < c.rest.length then
      let (more, last) := plainBreaks next
      (more.map (found ++ ·), last)
    else (some [], c)
  if c.peek 0 = some ' ' then go c.advance []
  else if c.atBreak then
    let (break_, next) := c.lineBreak
    if next.atDocumentMark then (none, next) else go next break_
  else (some [], c)
termination_by c.rest.length

/-- What stands between two words of a plain scalar: the spaces, or the fold of the line breaks.
Nothing stands there when the scalar ends. -/
structure Gap where
  text : List Char
  brokeLine : Bool
  next : Cursor

/-- The fold of a first line break with those that follow: a single one becomes a space. -/
def fold (first : List Char) (more : List Char) : List Char :=
  if first ≠ ['\n'] then first ++ more
  else if more = [] then [' ']
  else more

/-- The gap ahead of a plain scalar's next word. -/
def plainGap (c : Cursor) : Gap :=
  let (spaces, c) := c.span (· = ' ')
  if c.atBreak then
    let (first, c) := c.lineBreak
    if c.atDocumentMark then ⟨[], true, c⟩
    else
      match plainBreaks c with
      | (none, c) => ⟨[], true, c⟩
      | (some more, c) => ⟨fold first more, true, c⟩
  else ⟨spaces, false, c⟩

/-- The words of a plain scalar. `gap` stands before the next one. -/
def plainWords (inFlow : Bool) (indent : Int) (text gap : List Char) (broke : Bool) (c : Cursor) :
    List Char × Bool × Cursor :=
  let length := plainLength inFlow c.rest
  if c.peek 0 = some '#' ∨ length = 0 then (text, broke, c)
  else
    let word := c.rest.take length
    let after := plainGap (c.skip length)
    let text := text ++ gap ++ word
    if _h : after.next.rest.length < c.rest.length then
      if after.text = [] ∨ (¬ inFlow ∧ (after.next.column : Int) < indent) then
        (text, after.brokeLine, after.next)
      else plainWords inFlow indent text after.text after.brokeLine after.next
    else (text, after.brokeLine, after.next)
termination_by c.rest.length

/-- The plain scalar ahead, whether a line break was the last thing passed, and the place after.
Its further lines are indented by at least `indent`. -/
def plainScalar (inFlow : Bool) (indent : Int) (c : Cursor) : List Char × Bool × Cursor :=
  plainWords inFlow indent [] [] false c

/-! ## Quoted scalars -/

/-- What a letter after a backslash stands for. -/
def escapeOf? : Char → Option Char
  | '0' => some '\x00'
  | 'a' => some '\x07'
  | 'b' => some '\x08'
  | 't' => some '\t'
  | '\t' => some '\t'
  | 'n' => some '\n'
  | 'v' => some '\x0b'
  | 'f' => some '\x0c'
  | 'r' => some '\r'
  | 'e' => some '\x1b'
  | ' ' => some ' '
  | '"' => some '"'
  | '\\' => some '\\'
  | '/' => some '/'
  | 'N' => some '\x85'
  | '_' => some '\xa0'
  | 'L' => some '\u2028'
  | 'P' => some '\u2029'
  | _ => none

/-- How many hexadecimal digits follow a letter after a backslash. -/
def escapeDigits? : Char → Option Nat
  | 'x' => some 2
  | 'u' => some 4
  | 'U' => some 8
  | _ => none

def hexValue? (c : Char) : Option Nat :=
  if '0' ≤ c ∧ c ≤ '9' then some (c.toNat - '0'.toNat)
  else if 'a' ≤ c ∧ c ≤ 'f' then some (c.toNat - 'a'.toNat + 10)
  else if 'A' ≤ c ∧ c ≤ 'F' then some (c.toNat - 'A'.toNat + 10)
  else none

/-- The character of a code; a code of no character is replaced. -/
def charOfCode (code : Nat) : Except Error Char :=
  if 0x110000 ≤ code then .error .emptyNumber
  else if code.isValidChar then .ok (Char.ofNat code)
  else .ok '\ufffd'

/-- The line breaks after the first one inside quotes, blanks around them dropped. -/
def quotedBreaks (c : Cursor) : Except Error (List Char × Cursor) :=
  if c.atDocumentMark then .error .markInsideQuote
  else
    let next := (c.span isBlank).2
    if next.atBreak then
      let (break_, after) := next.lineBreak
      if _h : after.rest.length < c.rest.length then do
        let (more, last) ← quotedBreaks after
        return (break_ ++ more, last)
      else .ok (break_, after)
    else .ok ([], next)
termination_by c.rest.length

/-- The escape ahead, after its backslash. -/
def escape (c : Cursor) : Except Error (List Char × Cursor) :=
  match c.rest with
  | [] => .error .unknownEscape
  | ch :: rest =>
    match escapeOf? ch, escapeDigits? ch with
    | some plain, _ => .ok ([plain], c.advance)
    | none, some count =>
      match (rest.take count).mapM hexValue? with
      | some digits =>
        if digits.length = count then do
          let decoded ← charOfCode (digits.foldl (fun n d => 16 * n + d) 0)
          return ([decoded], c.skip (count + 1))
        else .error .unknownEscape
      | none => .error .unknownEscape
    | none, none =>
      if isBreak ch then quotedBreaks c.lineBreak.2
      else .error .unknownEscape

/-- The next piece of a quoted scalar, or nothing when its closing quote is ahead. -/
def quotedPiece (quote : Char) (c : Cursor) : Except Error (Option (List Char) × Cursor) :=
  match c.rest with
  | [] => .error .unclosedQuote
  | ch :: rest =>
    if ch = quote then
      if quote = '\'' ∧ rest.head? = some '\'' then .ok (some ['\''], c.skip 2)
      else .ok (none, c.advance)
    else if quote = '"' ∧ ch = '\\' then do
      let (text, next) ← escape c.advance
      return (some text, next)
    else if isBlank ch ∨ isBreak ch then do
      let (blanks, next) := c.span isBlank
      if next.rest = [] then throw .unclosedQuote
      if next.atBreak then
        let (first, next) := next.lineBreak
        let (more, next) ← quotedBreaks next
        return (some (fold first more), next)
      return (some blanks, next)
    else .ok (some [ch], c.advance)

/-- The pieces of a quoted scalar up to its closing quote. -/
def quotedPieces (quote : Char) (text : List Char) (c : Cursor) :
    Except Error (List Char × Cursor) :=
  match quotedPiece quote c with
  | .error e => .error e
  | .ok (none, next) => .ok (text, next)
  | .ok (some piece, next) =>
    if _h : next.rest.length < c.rest.length then quotedPieces quote (text ++ piece) next
    else .error .unclosedQuote
termination_by c.rest.length

/-- The scalar between quotes ahead. -/
def quotedScalar (c : Cursor) : Except Error (List Char × Cursor) :=
  match c.rest with
  | quote :: _ => quotedPieces quote [] c.advance
  | [] => .error .unclosedQuote

/-! ## Literal scalars -/

/-- What is done with the line breaks at the end of a literal: drop all, keep one, keep all. -/
inductive Chomping where
  | strip
  | clip
  | keep
  deriving DecidableEq

/-- The header of a literal: its chomping and, when written, its indentation. -/
def literalHeader (c : Cursor) : Except Error (Chomping × Option Nat × Cursor) := do
  let chompingOf? : Char → Option Chomping
    | '-' => some .strip
    | '+' => some .keep
    | _ => none
  let digit? (c : Char) : Option Nat := if c.isDigit then some (c.toNat - '0'.toNat) else none
  let first := c.peek 0
  let second := c.peek 1
  let (chomping, indent, next) :=
    match first.bind chompingOf?, first.bind digit? with
    | some chomping, _ =>
      match second.bind digit? with
      | some n => (chomping, some n, c.skip 2)
      | none => (chomping, none, c.advance)
    | none, some n =>
      match second.bind chompingOf? with
      | some chomping => (chomping, some n, c.skip 2)
      | none => (.clip, some n, c.advance)
    | none, none => (.clip, none, c)
  if indent = some 0 then throw .badLiteralHeader
  if (next.peek 0).any fun ch => ch ≠ ' ' && !isBreak ch then throw .badLiteralHeader
  -- the rest of the header's line may hold a comment
  let next := next.skipSpaces
  let next := if next.peek 0 = some '#' then (next.span fun ch => !isBreak ch).2 else next
  if next.rest ≠ [] ∧ !next.atBreak then throw .badLiteralHeader
  return (chomping, indent, next.lineBreak.2)

/-- The empty lines ahead of a literal of unknown indentation, and the deepest column of their
spaces and of its first line. -/
def literalIndentation (deepest : Nat) (c : Cursor) : List Char × Nat × Cursor :=
  let go (next : Cursor) (found : List Char) (deepest : Nat) : List Char × Nat × Cursor :=
    if _h : next.rest.length < c.rest.length then
      let (more, deepest, last) := literalIndentation deepest next
      (found ++ more, deepest, last)
    else (found, deepest, c)
  if c.peek 0 = some ' ' then go c.advance [] (max deepest c.advance.column)
  else if c.atBreak then
    let (break_, next) := c.lineBreak
    go next break_ deepest
  else ([], deepest, c)
termination_by c.rest.length

/-- Up to the column `indent` over spaces. -/
def skipIndent (indent : Nat) (c : Cursor) : Cursor :=
  c.skip ((c.rest.takeWhile (· = ' ')).length.min (indent - c.column))

/-- The empty lines ahead of a literal's next line. -/
def literalBreaks (indent : Nat) (c : Cursor) : List Char × Cursor :=
  let start := skipIndent indent c
  if start.atBreak then
    let (break_, next) := start.lineBreak
    if _h : next.rest.length < c.rest.length then
      let (more, last) := literalBreaks indent next
      (break_ ++ more, last)
    else (break_, next)
  else ([], start)
termination_by c.rest.length

/-- The lines of a literal: their text, the last line break, and the empty lines after it. -/
def literalLines (indent : Nat) (text breaks : List Char) (c : Cursor) :
    List Char × List Char × List Char × Cursor :=
  let (line, next) := c.span fun ch => !isBreak ch
  let (lineBreak, next) := next.lineBreak
  let (more, next) := literalBreaks indent next
  let text := text ++ breaks ++ line
  if next.column = indent ∧ next.rest ≠ [] then
    if _h : next.rest.length < c.rest.length then
      literalLines indent (text ++ lineBreak) more next
    else (text, lineBreak, more, next)
  else (text, lineBreak, more, next)
termination_by c.rest.length

/-- The literal ahead, inside a block that is indented to the column `outer`. -/
def literalScalar (outer : Int) (c : Cursor) : Except Error (List Char × Cursor) := do
  let (chomping, written, c) ← literalHeader c.advance
  let least := (max (outer + 1) 1).toNat
  let (breaks, indent, c) :=
    match written with
    | none =>
      let (breaks, deepest, c) := literalIndentation 0 c
      (breaks, max least deepest, c)
    | some n =>
      let indent := least + n - 1
      let (breaks, c) := literalBreaks indent c
      (breaks, indent, c)
  let (text, lineBreak, more, c) :=
    if c.column = indent ∧ c.rest ≠ [] then literalLines indent [] breaks c
    else ([], [], breaks, c)
  match chomping with
  | .strip => return (text, c)
  | .clip => return (text ++ lineBreak, c)
  | .keep => return (text ++ lineBreak ++ more, c)

end LiveMap.Yaml
