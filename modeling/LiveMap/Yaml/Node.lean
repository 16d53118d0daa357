import LiveMap.Yaml.Token

/-!
# YAML nodes

The tree that the tokens of one document spell out.

## Main definitions

* `Node`: scalars, sequences and mappings.
* `Node.ofTokens`: the node of one document; an empty document is an empty plain scalar.
-/

namespace LiveMap.Yaml

/-- A scalar, a sequence of nodes, or pairs of nodes in the order of the text. -/
inductive Node where
  | scalar (text : String) (plain : Bool)
  | sequence (items : List Node)
  | mapping (pairs : List (Node × Node))

namespace Node

/-- What stands for a node that is left out. -/
def empty : Node := .scalar "" true

/-- A reader takes nodes from the front of the tokens and gives the tokens after them. -/
abbrev Reader (α : Type) := List Token → Except Error (α × List Token)

/-- Reads a node with `read`, or takes it for left out when one of `stops` is ahead. -/
def orEmpty (stops : List Token) (read : Reader Node) : Reader Node := fun ts =>
  match ts with
  | t :: _ => if t ∈ stops then .ok (empty, ts) else read ts
  | [] => .ok (empty, ts)

/-- The value behind a colon, or an empty one when there is no colon. -/
def afterColon (stops : List Token) (read : Reader Node) : Reader Node := fun ts =>
  match ts with
  | .value :: rest => orEmpty stops read rest
  | _ => .ok (empty, ts)

mutual

/-- A node. In a block it may be a block itself, and as a value also a sequence that is not indented
deeper than its key. -/
def read (fuel : Nat) (inBlock unindented : Bool) : Reader Node := fun ts =>
  match fuel, ts with
  | fuel + 1, .blockEntry :: _ =>
    if unindented then do
      let (items, rest) ← unindentedItems fuel ts
      return (.sequence items, rest)
    else .error .nodeExpected
  | _, .scalar text plain :: rest => .ok (.scalar text plain, rest)
  | fuel + 1, .flowSequenceStart :: rest => do
    let (items, rest) ← flowItems fuel true rest
    return (.sequence items, rest)
  | fuel + 1, .flowMappingStart :: rest => do
    let (pairs, rest) ← flowPairs fuel true rest
    return (.mapping pairs, rest)
  | fuel + 1, .blockSequenceStart :: rest =>
    if inBlock then do
      let (items, rest) ← blockItems fuel rest
      return (.sequence items, rest)
    else .error .nodeExpected
  | fuel + 1, .blockMappingStart :: rest =>
    if inBlock then do
      let (pairs, rest) ← blockPairs fuel rest
      return (.mapping pairs, rest)
    else .error .nodeExpected
  | _, _ => .error .nodeExpected

/-- The entries of a block sequence up to its end. -/
def blockItems (fuel : Nat) : Reader (List Node) := fun ts =>
  match fuel, ts with
  | fuel + 1, .blockEntry :: rest => do
    let (item, rest) ← orEmpty [.blockEntry, .blockEnd] (read fuel true false) rest
    let (items, rest) ← blockItems fuel rest
    return (item :: items, rest)
  | _, .blockEnd :: rest => .ok ([], rest)
  | _, _ => .error .blockEndExpected

/-- The entries of a sequence that ends with its last entry. -/
def unindentedItems (fuel : Nat) : Reader (List Node) := fun ts =>
  match fuel, ts with
  | fuel + 1, .blockEntry :: rest => do
    let stops := [.blockEntry, .key, .value, .blockEnd]
    let (item, rest) ← orEmpty stops (read fuel true false) rest
    let (items, rest) ← unindentedItems fuel rest
    return (item :: items, rest)
  | _, _ => .ok ([], ts)

/-- The pairs of a block mapping up to its end. -/
def blockPairs (fuel : Nat) : Reader (List (Node × Node)) := fun ts =>
  match fuel, ts with
  | fuel + 1, .key :: rest => do
    let stops := [.key, .value, .blockEnd]
    let (key, rest) ← orEmpty stops (read fuel true true) rest
    let (value, rest) ← afterColon stops (read fuel true true) rest
    let (pairs, rest) ← blockPairs fuel rest
    return ((key, value) :: pairs, rest)
  | _, .blockEnd :: rest => .ok ([], rest)
  | _, _ => .error .blockEndExpected

/-- The entries of a flow sequence up to its bracket. A pair among them is a mapping of its own. -/
def flowItems (fuel : Nat) (first : Bool) : Reader (List Node) := fun ts =>
  match fuel, first, ts with
  | _, _, .flowSequenceEnd :: rest => .ok ([], rest)
  | _, false, .flowEntry :: .flowSequenceEnd :: rest => .ok ([], rest)
  | fuel + 1, false, .flowEntry :: rest => do
    let (item, rest) ← flowItem fuel rest
    let (items, rest) ← flowItems fuel false rest
    return (item :: items, rest)
  | fuel + 1, true, ts => do
    let (item, rest) ← flowItem fuel ts
    let (items, rest) ← flowItems fuel false rest
    return (item :: items, rest)
  | _, _, _ => .error .separatorExpected

/-- One entry of a flow sequence. -/
def flowItem (fuel : Nat) : Reader Node := fun ts =>
  match fuel, ts with
  | fuel + 1, .key :: rest => do
    let stops := [.flowEntry, .flowSequenceEnd]
    let (key, rest) ← orEmpty (.value :: stops) (read fuel false false) rest
    let (value, rest) ← afterColon stops (read fuel false false) rest
    return (.mapping [(key, value)], rest)
  | fuel + 1, ts => read fuel false false ts
  | _, _ => .error .nodeExpected

/-- The pairs of a flow mapping up to its bracket. -/
def flowPairs (fuel : Nat) (first : Bool) : Reader (List (Node × Node)) := fun ts =>
  match fuel, first, ts with
  | _, _, .flowMappingEnd :: rest => .ok ([], rest)
  | _, false, .flowEntry :: .flowMappingEnd :: rest => .ok ([], rest)
  | fuel + 1, false, .flowEntry :: rest => do
    let (pair, rest) ← flowPair fuel rest
    let (pairs, rest) ← flowPairs fuel false rest
    return (pair :: pairs, rest)
  | fuel + 1, true, ts => do
    let (pair, rest) ← flowPair fuel ts
    let (pairs, rest) ← flowPairs fuel false rest
    return (pair :: pairs, rest)
  | _, _, _ => .error .separatorExpected

/-- One pair of a flow mapping; a node without a colon has an empty value. -/
def flowPair (fuel : Nat) : Reader (Node × Node) := fun ts =>
  match fuel, ts with
  | fuel + 1, .key :: rest => do
    let stops := [.flowEntry, .flowMappingEnd]
    let (key, rest) ← orEmpty (.value :: stops) (read fuel false false) rest
    let (value, rest) ← afterColon stops (read fuel false false) rest
    return ((key, value), rest)
  | fuel + 1, ts => do
    let (key, rest) ← read fuel false false ts
    return ((key, empty), rest)
  | _, _ => .error .nodeExpected

end

/-- Every call takes a token or comes right before one that does, so this many calls suffice. -/
def fuelFor (ts : List Token) : Nat := 3 * ts.length + 3

/-- Checks that nothing but the end of the document is left. -/
def endOfDocument (ts : List Token) : Except Error Unit :=
  if ts.all (· = .documentEnd) then .ok () else .error .secondDocument

def ofTokens (ts : List Token) : Except Error Node := do
  match ts with
  | [] => return empty
  | .documentStart :: rest =>
    match rest with
    | [] => return empty
    | .documentStart :: _ => throw .secondDocument
    | .documentEnd :: _ =>
      endOfDocument rest
      return empty
    | _ =>
      let (node, rest) ← read (fuelFor ts) true false rest
      endOfDocument rest
      return node
  | _ =>
    let (node, rest) ← read (fuelFor ts) true false ts
    endOfDocument rest
    return node

def ofText (text : String) : Except Error Node := do ofTokens (← Token.scan text)

end Node

end LiveMap.Yaml
