import LiveMap.NumArray

/-!
# Colours by height

Points are coloured by their height between the 5th and the 95th percentile of the cloud: purple
below, white above.

## Main definitions

* `percentile`: linear interpolation between the order statistics of a list.
* `HeightColour.ofHeights`: the colours of a list of heights.
-/

namespace LiveMap

structure Colour where
  red : UInt8
  green : UInt8
  blue : UInt8
  deriving DecidableEq, Repr

namespace HeightColour

variable {K : Type} [Scalar K]

/-- The integer part toward zero. -/
def truncate (x : K) : Int := if x < 0 then -Scalar.floor (-x) else Scalar.floor x

/-- The integer part, on the circle of byte values. -/
def toByte (x : K) : UInt8 := UInt8.ofNat (truncate x % 256).toNat

/-- The value below which the part `q` of a sorted list lies, between two neighbours in proportion.
Neighbours are subtracted by `difference`, in the precision that they are stored in, and the nearer
neighbour is started from. -/
def percentileOfSorted (difference : K → K → K) (sorted : List K) (q : K) : Option K := do
  let last ← sorted.getLast?
  let top : K := (sorted.length - 1 : Nat)
  let place := top * q
  if top ≤ place then return last
  let index := (Scalar.floor place).toNat
  let part := place - (index : K)
  let low ← sorted[index]?
  let high ← sorted[index + 1]?
  let gap := difference high low
  return if 0.5 ≤ part then high - gap * (1 - part) else low + gap * part

/-- The same of an unsorted list. It is undefined as soon as one entry is. -/
def percentile (difference : K → K → K) (heights : List K) (q : K) : Option K :=
  match heights.find? fun h => ¬ Scalar.IsNumber h with
  | some undefined => some undefined
  | none => percentileOfSorted difference (heights.mergeSort fun a b => a ≤ b) q

/-- The colour of a height from `0` to `1`. -/
def ofFraction (f : K) : Colour where
  red := toByte (128.0 + f * 127.0)
  green := toByte (f * 255.0)
  blue := toByte (255.0 - f * 127.0)

/-- The part of the way from `low` to `high` that a height has come, at least a tenth of a unit
being taken as the whole way. -/
def fraction (low high height : K) : K :=
  Scalar.clamp 0 1 ((height - low) / Scalar.atLeast (high - low) 0.1)

/-- The colours of a list of heights; there are none without heights. -/
def ofHeights (difference : K → K → K) (heights : List K) : Option (List Colour) := do
  let low ← percentile difference heights 0.05
  let high ← percentile difference heights 0.95
  return heights.map fun h => ofFraction (fraction low high h)

def singleDifference (a b : K) : K := Scalar.single (a - b)

/-- The third column of an array with at least three. -/
def heights? (a : NumArray K) : Option (List K) :=
  match a.shape with
  | [rows, columns] =>
    if 3 ≤ columns then some ((List.range rows).filterMap fun i => a.entries[i * columns + 2]?)
    else none
  | _ => none

end HeightColour

end LiveMap
