import LiveMap.Numeric.Shortest
import LiveMap.Text.Quoted

/-!
# Document values

What a configuration document can hold.

## Main definitions

* `Value`: null, truth values, numbers, texts, lists and mappings.
* `Value.same`: equality of scalars, numbers being compared by value.
* `Mapping.put`, `Mapping.get?`: pairs in the order in which their keys first came.
* `Value.text`: a scalar as it is named in messages.
-/

namespace LiveMap

/-- A value of a document. The pairs of a mapping stand in the order in which their keys first
came. -/
inductive Value where
  | null
  | bool (b : Bool)
  | int (n : Int)
  | real (x : Float)
  | text (s : String)
  | list (items : List Value)
  | mapping (pairs : List (Value × Value))

namespace Value

instance : Inhabited Value := ⟨null⟩

/-- A number as a quotient of an integer by a positive natural; truth values count as one and
zero. -/
def quotient? : Value → Option (Int × Nat)
  | .bool b => some (if b then 1 else 0, 1)
  | .int n => some (n, 1)
  | .real x =>
    match Binary64.read x with
    | .finite negative n d => some (if negative then -(n : Int) else n, d)
    | _ => none
  | _ => none

/-- Equality of scalars. Numbers are equal when their values are, whatever their kinds; nothing
equals a collection or an undefined number. -/
def same (a b : Value) : Bool :=
  match a.quotient?, b.quotient? with
  | some (m, d), some (n, e) => m * e = n * d
  | _, _ =>
    match a, b with
    | .null, .null => true
    | .text s, .text t => s = t
    | .real x, .real y => x == y
    | _, _ => false

/-- Whether a document that consists of the value counts as empty. -/
def isEmpty : Value → Bool
  | .null => true
  | .bool b => !b
  | .int n => n = 0
  | .real x => x == 0
  | .text s => s = ""
  | .list items => items.isEmpty
  | .mapping pairs => pairs.isEmpty

mutual

/-- The value as it is named in messages; texts inside collections are quoted. -/
def spell (quoteTexts : Bool) : Value → String
  | .null => "None"
  | .bool b => if b then "True" else "False"
  | .int n => toString n
  | .real x => shortestText x
  | .text s => if quoteTexts then quoted s else s
  | .list items => "[" ++ ", ".intercalate (spellItems items) ++ "]"
  | .mapping pairs => "\x7b" ++ ", ".intercalate (spellPairs pairs) ++ "\x7d"

/-- The items of a list as they are named in messages. -/
def spellItems : List Value → List String
  | [] => []
  | v :: rest => spell true v :: spellItems rest

/-- The pairs of a mapping as they are named in messages. -/
def spellPairs : List (Value × Value) → List String
  | [] => []
  | (k, v) :: rest => (spell true k ++ ": " ++ spell true v) :: spellPairs rest

end

end Value

abbrev Mapping := List (Value × Value)

namespace Mapping

def get? (m : Mapping) (key : Value) : Option Value :=
  (m.find? fun p => p.1.same key).map Prod.snd

/-- The mapping with one more pair. A key that is there already keeps its place and its spelling and
gets the new value. -/
def put : Mapping → Value → Value → Mapping
  | [], key, value => [(key, value)]
  | (k, v) :: rest, key, value =>
    if k.same key then (k, value) :: rest else (k, v) :: put rest key value

def ofPairs (pairs : List (Value × Value)) : Mapping :=
  pairs.foldl (fun m p => put m p.1 p.2) []

end Mapping

end LiveMap
