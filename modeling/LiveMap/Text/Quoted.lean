import LiveMap.Text.Printable

/-!
# Quoted text

A text as it is shown inside messages: between quotes, with what cannot be printed spelled out.

## Main definitions

* `Quoted.mark`: which quote surrounds a text.
* `quoted`: the text between quotes.
-/

namespace LiveMap

namespace Quoted

/-- The quote around a text: a single one, unless the text holds a single and no double one. -/
def mark (cs : List Char) : Char :=
  if '\'' ∈ cs ∧ '"' ∉ cs then '"' else '\''

/-- The lower-case hexadecimal digits of a code, at least `width` of them. -/
def hex (width code : Nat) : List Char :=
  let digits := Nat.toDigits 16 code
  List.replicate (width - digits.length) '0' ++ digits

/-- How one character stands between two quotes `q`. -/
def encodeChar (q c : Char) : List Char :=
  if c = q ∨ c = '\\' then ['\\', c]
  else if c = '\n' then ['\\', 'n']
  else if c = '\r' then ['\\', 'r']
  else if c = '\t' then ['\\', 't']
  else if isPrintable c then [c]
  else if c.toNat < 0x100 then ['\\', 'x'] ++ hex 2 c.toNat
  else if c.toNat < 0x10000 then ['\\', 'u'] ++ hex 4 c.toNat
  else ['\\', 'U'] ++ hex 8 c.toNat

end Quoted

/-- The text between quotes, with what cannot be printed spelled out. -/
def quoted (text : String) : String :=
  let cs := text.toList
  let q := Quoted.mark cs
  String.ofList (q :: cs.flatMap (Quoted.encodeChar q) ++ [q])

end LiveMap
