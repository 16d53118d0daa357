import LiveMap.Numeric.Rounding

/-!
# Decimal text of binary64 numbers

A finite binary64 number is a quotient of two naturals with a sign; its decimal forms are roundings
of that exact value, the even digit winning a tie.

## Main definitions

* `Binary64.Reading`: the value that 64 bits stand for.
* `fixedPlaces`: the text with a given number of decimal places.
* `Significant.ofBinary64`: the value rounded to a given number of significant digits.
-/

namespace LiveMap

namespace Binary64

/-- The value of a binary64 number: a signed quotient, a signed infinity, or undefined. -/
inductive Reading where
  | finite (negative : Bool) (numerator denominator : Nat)
  | infinite (negative : Bool)
  | undefined
  deriving DecidableEq, Repr

/-- The value that the 64 bits of a number stand for. -/
def read (x : Float) : Reading :=
  let bits := x.toBits.toNat
  let negative := decide (1 <<< 63 ≤ bits)
  let exponent := bits >>> 52 % 2048
  let fraction := bits % (1 <<< 52)
  if exponent = 2047 then
    if fraction = 0 then .infinite negative else .undefined
  else
    let significand := if exponent = 0 then fraction else 1 <<< 52 + fraction
    let scale := max exponent 1
    .finite negative (significand <<< (scale - 1075)) (1 <<< (1075 - scale))

end Binary64

/-- Decimal digits, at least `width` of them. -/
def paddedDigits (width n : Nat) : List Char :=
  let digits := Nat.toDigits 10 n
  List.replicate (width - digits.length) '0' ++ digits

/-- The text of a number with `places` decimals; the sign of a negative zero is kept. -/
def fixedPlaces (places : Nat) (x : Float) : String :=
  match Binary64.read x with
  | .undefined => "nan"
  | .infinite negative => if negative then "-inf" else "inf"
  | .finite negative n d =>
    let digits := paddedDigits (places + 1) (roundHalfEven (n * tenTo places) d)
    let whole := digits.take (digits.length - places)
    let decimals := digits.drop (digits.length - places)
    let sign := if negative then ['-'] else []
    let point := if places = 0 then [] else ['.']
    String.ofList (sign ++ whole ++ point ++ decimals)

/-! ## Significant digits -/

/-- A decimal number `± digits * 10 ^ exponent`. -/
structure Significant where
  negative : Bool
  digits : Nat
  exponent : Int
  deriving DecidableEq, Repr

namespace Significant

/-- The decimal exponent of the first digit of `n / d`, for a quotient that is not zero. -/
def leadingExponent (n d : Nat) : Int :=
  if d ≤ n then ((Nat.toDigits 10 (n / d)).length : Int) - 1
  else
    -- `d / n` lies between two powers of ten; the larger one lifts the quotient to at least one
    let lift := (Nat.toDigits 10 (d / n)).length
    if d ≤ n * tenTo (lift - 1) then 1 - (lift : Int) else -(lift : Int)

/-- The quotient `n / d` rounded to `count` significant digits. -/
def ofQuotient (count : Nat) (negative : Bool) (n d : Nat) : Significant :=
  if n = 0 then ⟨negative, 0, 0⟩
  else
    let last := leadingExponent n d - (count - 1)
    let digits :=
      if 0 ≤ last then roundHalfEven n (d * tenTo last.toNat)
      else roundHalfEven (n * tenTo (-last).toNat) d
    ⟨negative, digits, last⟩

/-- A finite number rounded to `count` significant digits. -/
def ofBinary64 (count : Nat) (x : Float) : Option Significant :=
  match Binary64.read x with
  | .finite negative n d => some (ofQuotient count negative n d)
  | _ => none

/-- The digits with their trailing zeros moved into the exponent. -/
def trimZeros (digits : Nat) (exponent : Int) : Nat × Int :=
  if h : 0 < digits ∧ digits % 10 = 0 then trimZeros (digits / 10) (exponent + 1)
  else (digits, exponent)
termination_by digits
decreasing_by omega

def trim (s : Significant) : Significant :=
  let (digits, exponent) := trimZeros s.digits s.exponent
  ⟨s.negative, digits, exponent⟩

/-- The integer that the number is, if it is one. -/
def toInt? (s : Significant) : Option Int :=
  let t := s.trim
  if t.digits = 0 then some 0
  else if 0 ≤ t.exponent then
    let n : Int := (t.digits * tenTo t.exponent.toNat : Nat)
    some (if t.negative then -n else n)
  else none

end Significant

end LiveMap
