import LiveMap.Config.Value
import LiveMap.Yaml.Node

/-!
# Values of YAML nodes

A plain scalar stands for null, a truth value or a number if it is spelled like one; any other
scalar is a text.

## Main definitions

* `resolvePlain`: the value of a plain scalar.
* `Node.toValue`: the value of a node.
* `Document.read`: the value of a text.
-/

namespace LiveMap.Yaml

/-! ## Spellings -/

def nullSpellings : List String := ["", "~", "null", "Null", "NULL"]

def trueSpellings : List String := ["yes", "Yes", "YES", "true", "True", "TRUE", "on", "On", "ON"]

def falseSpellings : List String :=
  ["no", "No", "NO", "false", "False", "FALSE", "off", "Off", "OFF"]

/-- A sign in front, and the rest. -/
def splitSign : List Char → Bool × List Char
  | '-' :: rest => (true, rest)
  | '+' :: rest => (false, rest)
  | cs => (false, cs)

/-- A decimal digit or an underscore. -/
def isDigitOrGap (c : Char) : Bool := c.isDigit || c = '_'

/-- The digits without the underscores between them. -/
def withoutGaps (cs : List Char) : List Char := cs.filter (· ≠ '_')

/-- Digits as a natural number in a base. -/
def naturalOf (base : Nat) (cs : List Char) : Nat :=
  cs.foldl (fun n c => base * n + (hexValue? c).getD 0) 0

/-- Pieces between colons. -/
def colonPieces (cs : List Char) : List (List Char) := cs.splitOn ':'

/-- A piece of a number in base sixty after the first: one digit, or two up to 59. -/
def isSixtieth : List Char → Bool
  | [c] => c.isDigit
  | [c, d] => '0' ≤ c && c ≤ '5' && d.isDigit
  | _ => false

/-! ## Integers -/

/-- The digits and the base of an integer without sign, in base 2, 8, 10 or 16. -/
def integerDigits? : List Char → Option (Nat × List Char)
  | '0' :: 'b' :: rest =>
    if rest ≠ [] ∧ rest.all fun c => c = '0' || c = '1' || c = '_' then some (2, rest) else none
  | '0' :: 'x' :: rest =>
    if rest ≠ [] ∧ rest.all fun c => (hexValue? c).isSome || c = '_' then some (16, rest) else none
  | ['0'] => some (10, ['0'])
  | '0' :: rest =>
    if rest.all fun c => ('0' ≤ c && c ≤ '7') || c = '_' then some (8, '0' :: rest) else none
  | c :: rest => if c.isDigit && rest.all isDigitOrGap then some (10, c :: rest) else none
  | [] => none

/-- An integer without sign in base sixty: the pieces between its colons. -/
def sixtyPieces? (cs : List Char) : Option (List Nat) :=
  match colonPieces cs with
  | (c :: first) :: second :: rest =>
    if '1' ≤ c && c ≤ '9' && first.all isDigitOrGap && (second :: rest).all isSixtieth then
      some (((c :: first) :: second :: rest).map fun piece => naturalOf 10 (withoutGaps piece))
    else none
  | _ => none

/-- A plain scalar that is spelled like an integer. -/
def integer? (cs : List Char) : Option (Except Error Int) :=
  let (negative, digits) := splitSign cs
  let signed (n : Nat) : Int := if negative then -(n : Int) else n
  match integerDigits? digits with
  | some (base, digits) =>
    let digits := withoutGaps digits
    some (if digits = [] then .error .emptyNumber else .ok (signed (naturalOf base digits)))
  | none => (sixtyPieces? digits).map fun pieces =>
    .ok (signed (pieces.foldl (fun n piece => 60 * n + piece) 0))

/-! ## Reals -/

/-- The exponent of a real: a mark, a sign that must be there, and digits. -/
def exponent? : List Char → Option Int
  | [] => some 0
  | e :: sign :: digits =>
    if (e = 'e' ∨ e = 'E') ∧ (sign = '+' ∨ sign = '-') ∧ digits ≠ [] ∧ digits.all Char.isDigit then
      let n : Int := naturalOf 10 digits
      some (if sign = '-' then -n else n)
    else none
  | _ => none

/-- The number `digits * 10 ^ exponent`. Past 400 places beyond the digits it is infinite or zero.
-/
def decimalFloat (digits : List Char) (exponent : Int) : Float :=
  let places := max (-(digits.length : Int) - 400) (min exponent 400)
  Float.ofScientific (naturalOf 10 digits) (places < 0) places.natAbs

/-- A real without sign: digits around a point, then an exponent. Digits may be missing on one side
of the point, before it only without a sign. -/
def decimal? (mayStartWithPoint : Bool) (cs : List Char) : Option Float :=
  let whole := cs.takeWhile isDigitOrGap
  match cs.dropWhile isDigitOrGap with
  | '.' :: rest =>
    let part := rest.takeWhile isDigitOrGap
    let startsWell :=
      match whole, part with
      | c :: _, _ => c.isDigit
      | [], c :: _ => mayStartWithPoint && c.isDigit
      | [], [] => false
    if startsWell then
      (exponent? (rest.dropWhile isDigitOrGap)).map fun e =>
        let decimals := withoutGaps part
        decimalFloat (withoutGaps whole ++ decimals) (e - decimals.length)
    else none
  | _ => none

/-- A real without sign in base sixty, with a point in the last piece. -/
def sixtyReal? (cs : List Char) : Option Float :=
  let whole := cs.takeWhile (· ≠ '.')
  match cs.dropWhile (· ≠ '.'), colonPieces whole with
  | '.' :: part, (c :: first) :: second :: rest =>
    if c.isDigit && first.all isDigitOrGap && (second :: rest).all isSixtieth &&
        part.all isDigitOrGap then
      let pieces := ((c :: first) :: second :: rest).map withoutGaps
      let decimals := withoutGaps part
      let last := decimalFloat ((pieces.getLastD []) ++ decimals) (-(decimals.length : Int))
      let earlier := pieces.dropLast.reverse.map fun piece => decimalFloat piece 0
      some ((earlier.foldl (fun (sum, base) digit => (sum + digit * base, base * 60)) (last, 60)).1)
    else none
  | _, _ => none

/-- A plain scalar that is spelled like a real. -/
def real? (cs : List Char) : Option Float :=
  let (negative, digits) := splitSign cs
  let signed (x : Float) : Float := if negative then -x else x
  let hasSign := digits.length < cs.length
  if [".inf", ".Inf", ".INF"].contains (String.ofList digits) then some (signed (1.0 / 0.0))
  else if [".nan", ".NaN", ".NAN"].contains (String.ofList cs) then some (0.0 / 0.0)
  else
    match decimal? (!hasSign) digits with
    | some x => some (signed x)
    | none => (sixtyReal? digits).map signed

/-! ## Values -/

/-- The value of a plain scalar. -/
def resolvePlain (text : String) : Except Error Value :=
  if nullSpellings.contains text then .ok .null
  else if trueSpellings.contains text then .ok (.bool true)
  else if falseSpellings.contains text then .ok (.bool false)
  else if text = "=" ∨ text = "<<" then .error (.reservedScalar text)
  else
    match real? text.toList, integer? text.toList with
    | some x, _ => .ok (.real x)
    | none, some n => n.map .int
    | none, none => .ok (.text text)

def isKey : Value → Bool
  | .list _ | .mapping _ => false
  | _ => true

/-- A plain scalar of the given spelling. -/
def Node.isPlain (spelling : String) : Node → Bool
  | .scalar text plain => plain && text = spelling
  | _ => false

mutual

def Node.toValue : Node → Except Error Value
  | .scalar text plain => if plain then resolvePlain text else .ok (.text text)
  | .sequence items => do return .list (← itemValues items)
  | .mapping pairs => do
    let (taken, own) ← pairValues pairs
    return .mapping (Mapping.ofPairs (taken ++ own))

def itemValues : List Node → Except Error (List Value)
  | [] => .ok []
  | item :: rest => do return (← item.toValue) :: (← itemValues rest)

/-- The keys and values that a mapping takes from others under the key `<<`, and its own. The key
`=` is a text. -/
def pairValues : List (Node × Node) → Except Error (List (Value × Value) × List (Value × Value))
  | [] => .ok ([], [])
  | (key, value) :: rest =>
    if key.isPlain "<<" then do
      let first ← value.pairsToTake
      let (taken, own) ← pairValues rest
      return (first ++ taken, own)
    else do
      let k ← if key.isPlain "=" then pure (.text "=") else key.toValue
      if !isKey k then throw .collectionAsKey
      let v ← value.toValue
      let (taken, own) ← pairValues rest
      return (taken, (k, v) :: own)

/-- The keys and values that another mapping takes from a node: a mapping, or a sequence of
mappings. -/
def Node.pairsToTake : Node → Except Error (List (Value × Value))
  | .mapping pairs => do
    let (taken, own) ← pairValues pairs
    return taken ++ own
  | .sequence items => itemsToTake items
  | .scalar _ _ => .error .nothingToTake

/-- The keys and values of mappings, the last mapping first, so that an earlier one prevails. -/
def itemsToTake : List Node → Except Error (List (Value × Value))
  | [] => .ok []
  | .mapping pairs :: rest => do
    let (taken, own) ← pairValues pairs
    let later ← itemsToTake rest
    return later ++ (taken ++ own)
  | _ :: _ => .error .nothingToTake

end

/-- The value of a text that is one document. -/
def readValue (text : String) : Except Error Value := do (← Node.ofText text).toValue

end LiveMap.Yaml
