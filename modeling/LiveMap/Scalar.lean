import LiveMap.Numeric.Binary32

/-!
# Scalars

Every geometric and timing rule of the library is stated over an arbitrary scalar type, so that one
definition runs on binary64 numbers and can be reasoned about over the real numbers.

## Main definitions

* `Scalar`: the operations that the rules use.
* `Scalar.IsNumber`, `Scalar.IsFinite`: what it takes for a scalar to be comparable and bounded.
-/

namespace LiveMap

/-- The arithmetic, order and elementary functions that the library's rules are written with, and
the rounding to and from the 32-bit form in which point clouds are packed. -/
class Scalar (K : Type) extends Add K, Sub K, Mul K, Div K, Neg K, Zero K, One K, NatCast K,
    OfScientific K, LT K, LE K where
  decLt : DecidableLT K
  decLe : DecidableLE K
  abs : K → K
  sqrt : K → K
  sin : K → K
  cos : K → K
  acos : K → K
  /-- The largest integer that is not above a finite scalar. -/
  floor : K → Int
  /-- The nearest binary32 number, as its 32 bits. -/
  toBinary32 : K → UInt32
  /-- The scalar that 32 bits stand for. -/
  ofBinary32 : UInt32 → K

namespace Scalar

variable {K : Type} [Scalar K]

instance : DecidableLT K := decLt

instance : DecidableLE K := decLe

/-- A scalar that can be compared: it is not above itself only when it is undefined. -/
def IsNumber (x : K) : Prop := x ≤ x

/-- A bounded scalar: its distance to itself is defined. -/
def IsFinite (x : K) : Prop := IsNumber (x - x)

instance (x : K) : Decidable (IsNumber x) := inferInstanceAs (Decidable (x ≤ x))

instance (x : K) : Decidable (IsFinite x) := inferInstanceAs (Decidable (IsNumber (x - x)))

/-- Neither scalar is above the other. -/
def Equal (x y : K) : Prop := x ≤ y ∧ y ≤ x

instance (x y : K) : Decidable (Equal x y) := inferInstanceAs (Decidable (_ ∧ _))

/-- The first scalar, unless the second is larger. -/
def atLeast (x low : K) : K := if x < low then low else x

/-- The first scalar, unless the second is smaller. -/
def atMost (x high : K) : K := if high < x then high else x

/-- The scalar brought into the interval from `low` to `high`; an undefined one stays as it is. -/
def clamp (low high x : K) : K := atMost (atLeast x low) high

/-- The scalar after a trip through the 32-bit form. -/
def single (x : K) : K := ofBinary32 (toBinary32 x)

end Scalar

/-- The integer part of a finite binary64 number, toward minus infinity, and `0` for the others. -/
def floorBinary64 (x : Float) : Int :=
  let bits : Nat := x.toBits.toNat
  let negative := decide (1 <<< 63 ≤ bits)
  let exponent : Nat := bits >>> 52 % 2048
  let fraction : Nat := bits % (1 <<< 52)
  if exponent = 2047 then 0
  else
    let significand : Nat := if exponent = 0 then fraction else 1 <<< 52 + fraction
    let scale : Nat := max exponent 1
    let numerator : Nat := significand <<< (scale - 1075)
    let denominator : Nat := 1 <<< (1075 - scale)
    Int.fdiv (if negative then -(numerator : Int) else numerator) denominator

instance : Scalar Float where
  zero := 0
  one := 1
  natCast := Float.ofNat
  decLt := inferInstance
  decLe := inferInstance
  abs := Float.abs
  sqrt := Float.sqrt
  sin := Float.sin
  cos := Float.cos
  acos := Float.acos
  floor := floorBinary64
  toBinary32 x := Binary32.ofBinary64 x.toBits
  ofBinary32 b := Float.ofBits (Binary32.toBinary64 b)

end LiveMap
