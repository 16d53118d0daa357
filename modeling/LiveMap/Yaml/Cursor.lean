/-!
# Reading position

## Main definitions

* `Cursor`: the rest of a text, with the line, the column and the index it starts at.
* `Cursor.advance`, `Cursor.skip`, `Cursor.span`: moving on.
* `Cursor.lineBreak`: taking one line break.
* `Cursor.atDocumentMark`: three dashes or dots that separate documents.
-/

namespace LiveMap.Yaml

/-- Characters that end a line. -/
def isBreak (c : Char) : Bool :=
  c = '\n' || c = '\r' || c = '\x85' || c = '\u2028' || c = '\u2029'

/-- Characters between words on one line. -/
def isBlank (c : Char) : Bool := c = ' ' || c = '\t'

/-- What ends a word: a blank, a line break, or the end of the text. -/
def endsWord : Option Char → Bool
  | none => true
  | some c => isBlank c || isBreak c

/-- The rest of a text and where it starts. -/
structure Cursor where
  rest : List Char
  line : Nat := 0
  column : Nat := 0
  index : Nat := 0

namespace Cursor

/-- The character `n` places ahead. -/
def peek (c : Cursor) (n : Nat) : Option Char := c.rest[n]?

/-- One character further. A byte order mark takes no column. -/
def advance (c : Cursor) : Cursor :=
  match c.rest with
  | [] => c
  | ch :: rest =>
    if isBreak ch then ⟨rest, c.line + 1, 0, c.index + 1⟩
    else if ch = '\ufeff' then ⟨rest, c.line, c.column, c.index + 1⟩
    else ⟨rest, c.line, c.column + 1, c.index + 1⟩

@[simp] theorem rest_advance (c : Cursor) : c.advance.rest = c.rest.tail := by
  unfold advance
  split <;> rename_i h <;> rw [h]
  · rfl
  · split
    · rfl
    · split <;> rfl

def skip (c : Cursor) (n : Nat) : Cursor := Nat.repeat advance n c

/-- The characters ahead that satisfy `p`, and the place after them. -/
def span (p : Char → Bool) (c : Cursor) : List Char × Cursor :=
  let taken := c.rest.takeWhile p
  (taken, c.skip taken.length)

/-- The place after the blanks ahead, counting only spaces. -/
def skipSpaces (c : Cursor) : Cursor := (c.span (· = ' ')).2

def atBreak (c : Cursor) : Bool := (c.peek 0).any isBreak

/-- One line break ahead. The line and paragraph separators stay what they are, the others are line
feeds. -/
def lineBreak (c : Cursor) : List Char × Cursor :=
  match c.rest with
  | '\r' :: '\n' :: _ => (['\n'], c.skip 2)
  | ch :: _ =>
    if ch = '\u2028' ∨ ch = '\u2029' then ([ch], c.advance)
    else if isBreak ch then (['\n'], c.advance)
    else ([], c)
  | [] => ([], c)

def startsWith (c : Cursor) (text : List Char) : Bool := text.isPrefixOf c.rest

/-- Whether three dashes, or three dots, stand ahead as a word. -/
def atDocumentMark (c : Cursor) : Bool :=
  (c.startsWith ['-', '-', '-'] || c.startsWith ['.', '.', '.']) && endsWord (c.peek 3)

end Cursor

end LiveMap.Yaml
