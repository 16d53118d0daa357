import LiveMap.Numeric.Decimal

/-!
# Shortest decimal text

The fewest digits that read back as the same binary64 number. Of several decimals with that many
digits, the one nearest to the number is taken.

## Main definitions

* `Shortest.digits`: the digits and their exponent.
* `shortestText`: the text, positional for moderate sizes and with an exponent otherwise.
-/

namespace LiveMap

namespace Shortest

/-- A positive binary64 number `significand * 2 ^ exponent`. -/
structure Positive where
  significand : Nat
  exponent : Int
  /-- The number below is only half as far away as the one above. -/
  narrowBelow : Bool

def Positive.ofFloat (x : Float) : Positive :=
  let bits : Nat := x.toBits.toNat
  let exponent : Nat := bits >>> 52 % 2048
  let fraction : Nat := bits % (1 <<< 52)
  if exponent = 0 then ⟨fraction, -1074, false⟩
  else ⟨1 <<< 52 + fraction, exponent - 1075, fraction = 0 && 1 < exponent⟩

/-- Four times the number, and the ends of the interval that rounds to it, over one denominator. -/
structure Interval where
  low : Nat
  middle : Nat
  high : Nat
  denominator : Nat
  /-- Whether the ends themselves round to the number. -/
  closed : Bool

def Interval.ofPositive (p : Positive) : Interval :=
  let m := p.significand
  let below := if p.narrowBelow then 1 else 2
  let up := 1 <<< p.exponent.toNat
  ⟨(4 * m - below) * up, 4 * m * up, (4 * m + 2) * up, 4 <<< (-p.exponent).toNat, m % 2 = 0⟩

/-- Whether the decimal `digits * 10 ^ exponent` lies in the interval. -/
def Interval.contains (i : Interval) (digits : Nat) (exponent : Int) : Bool :=
  let value := digits * tenTo exponent.toNat * i.denominator
  let scale := tenTo (-exponent).toNat
  if i.closed then i.low * scale ≤ value && value ≤ i.high * scale
  else i.low * scale < value && value < i.high * scale

/-- The decimal with its last digit at `exponent` that is nearest to the number, if one of its two
neighbours reads back as it. -/
def Interval.nearest? (i : Interval) (exponent : Int) : Option Nat :=
  let n := i.middle * tenTo (-exponent).toNat
  let d := i.denominator * tenTo exponent.toNat
  let rounded := roundHalfEven n d
  if i.contains rounded exponent then some rounded
  else if i.contains (n / d) exponent then some (n / d)
  else if i.contains (n / d + 1) exponent then some (n / d + 1)
  else none

/-- The fewest digits of a positive finite number, at most seventeen. -/
def digits (x : Float) : Significant :=
  let i := Interval.ofPositive (Positive.ofFloat x)
  let leading := Significant.leadingExponent i.middle i.denominator
  let found := (List.range 17).findSome? fun (count : Nat) =>
    (i.nearest? (leading - count)).map fun d => (⟨false, d, leading - count⟩ : Significant)
  found.getD (Significant.ofQuotient 17 false i.middle i.denominator)

end Shortest

/-- The shortest text of a number: positional from `1e-4` up to `1e16`, always with a point or an
exponent, an exponent having at least two digits. -/
def shortestText (x : Float) : String :=
  match Binary64.read x with
  | .undefined => "nan"
  | .infinite negative => if negative then "-inf" else "inf"
  | .finite negative n _ =>
    let sign := if negative then "-" else ""
    if n = 0 then sign ++ "0.0"
    else
      let s := (Shortest.digits x.abs).trim
      let ds := Nat.toDigits 10 s.digits
      let leading := s.exponent + ds.length - 1
      let body : List Char :=
        if -4 ≤ leading ∧ leading < 0 then
          '0' :: '.' :: List.replicate (-leading - 1).toNat '0' ++ ds
        else if 0 ≤ leading ∧ leading < 16 then
          let whole := leading.toNat + 1
          if ds.length ≤ whole then ds ++ List.replicate (whole - ds.length) '0' ++ ['.', '0']
          else ds.take whole ++ '.' :: ds.drop whole
        else
          let mantissa := match ds with
            | [d] => [d]
            | d :: rest => d :: '.' :: rest
            | [] => []
          let mark := if leading < 0 then '-' else '+'
          mantissa ++ 'e' :: mark :: paddedDigits 2 leading.natAbs
      sign ++ String.ofList body

end LiveMap
