import LiveMap.Numeric.Rounding

/-!
# Binary32 numbers

Rounding of binary64 numbers to binary32 and the exact way back, on the bits of the two formats.

## Main definitions

* `Binary32.ofBinary64`: the nearest binary32 number; too large a number becomes infinite.
* `Binary32.toBinary64`: every binary32 number as a binary64 number.
-/

namespace LiveMap.Binary32

/-- The magnitude bits of the binary32 number nearest to `significand * 2 ^ (exponent - 1075)`.
Carrying out of the fraction moves on to the next exponent by itself, and past the last finite
number to infinity. -/
def magnitude (significand exponent : Nat) : Nat :=
  if 897 ≤ exponent then
    min ((exponent - 897) <<< 23 + roundHalfEven significand (1 <<< 29)) (255 <<< 23)
  else
    roundHalfEven significand (1 <<< (926 - exponent))

/-- The nearest binary32 number, ties to even; an undefined number gives the quiet one of the same
sign. -/
def ofBinary64 (bits : UInt64) : UInt32 :=
  let n := bits.toNat
  let sign := n >>> 63 <<< 31
  let exponent := n >>> 52 % 2048
  let fraction := n % (1 <<< 52)
  let size :=
    if exponent = 2047 then
      if fraction = 0 then 255 <<< 23 else 511 <<< 22 + fraction >>> 29 % (1 <<< 22)
    else if exponent = 0 then magnitude fraction 1
    else magnitude (1 <<< 52 + fraction) exponent
  UInt32.ofNat (sign + size)

/-- The binary64 number of the same value. -/
def toBinary64 (bits : UInt32) : UInt64 :=
  let n := bits.toNat
  let sign := n >>> 31 <<< 63
  let exponent := n >>> 23 % 256
  let fraction := n % (1 <<< 23)
  let size :=
    if exponent = 255 then
      if fraction = 0 then 2047 <<< 52 else 4095 <<< 51 + (fraction % (1 <<< 22)) <<< 29
    else if exponent = 0 then
      if fraction = 0 then 0
      else
        let top := Nat.log2 fraction
        (top + 874) <<< 52 + (fraction <<< (52 - top) - 1 <<< 52)
    else (exponent + 896) <<< 52 + fraction <<< 29
  UInt64.ofNat (sign + size)

end LiveMap.Binary32
