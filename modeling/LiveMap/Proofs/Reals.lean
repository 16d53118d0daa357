import LiveMap.Scalar
import Mathlib.Analysis.Real.Sqrt
import Mathlib.Analysis.SpecialFunctions.Trigonometric.Inverse
import Mathlib.Data.Int.Log

/-!
# Exact arithmetic

The real numbers as scalars. Sums, products, roots and comparisons are exact; only the packing of a
coordinate into 32 bits rounds.

## Main definitions

* `roundToEven`: the nearest integer, ties to even.
* `Binary32.ofReal`, `Binary32.toReal`: the packing of a real number, and the way back.
* The real numbers as a `Scalar`.
-/

namespace LiveMap

/-- The integer nearest to a real number, the even one of two that are equally near. -/
noncomputable def roundToEven (x : ℝ) : ℤ :=
  if Int.fract x < 1 / 2 ∨ (Int.fract x = 1 / 2 ∧ Even ⌊x⌋) then ⌊x⌋ else ⌊x⌋ + 1

namespace Binary32

/-- The power of two that the significand of a number starts at; small numbers share the least. -/
noncomputable def leadingExponent (x : ℝ) : ℤ :=
  if |x| < 2 ^ (-126 : ℤ) then -126 else Int.log 2 |x|

/-- The bits of the binary32 number nearest to a real number, ties to even. A significand that is
rounded up to the next power of two moves on to the next exponent by itself, and past the last
finite number to infinity. -/
noncomputable def ofReal (x : ℝ) : UInt32 :=
  let exponent := leadingExponent x
  let significand := (roundToEven (|x| / 2 ^ (exponent - 23))).toNat
  let size := min ((exponent + 126).toNat <<< 23 + significand) (255 <<< 23)
  UInt32.ofNat (if x < 0 then 1 <<< 31 + size else size)

/-- The real number of a bit pattern; patterns that stand for no real number give zero. -/
noncomputable def toReal (bits : UInt32) : ℝ :=
  let n := bits.toNat
  let exponent := n >>> 23 % 256
  let fraction := n % (1 <<< 23)
  let size : ℝ :=
    if exponent = 255 then 0
    else if exponent = 0 then fraction * 2 ^ (-149 : ℤ)
    else ((1 <<< 23 + fraction : ℕ) : ℝ) * 2 ^ ((exponent : ℤ) - 150)
  if 1 <<< 31 ≤ n then -size else size

end Binary32

noncomputable instance : Scalar ℝ where
  decLt := Classical.decRel _
  decLe := Classical.decRel _
  abs x := |x|
  sqrt := Real.sqrt
  sin := Real.sin
  cos := Real.cos
  acos := Real.arccos
  floor := Int.floor
  toBinary32 := Binary32.ofReal
  ofBinary32 := Binary32.toReal

namespace Scalar

@[simp] theorem abs_real (x : ℝ) : Scalar.abs x = |x| := rfl

/-- The literal that the rules double with. -/
@[simp] theorem two_real : (Scalar.toOfScientific.ofScientific 20 true 1 : ℝ) = 2 := by norm_num

end Scalar

end LiveMap
