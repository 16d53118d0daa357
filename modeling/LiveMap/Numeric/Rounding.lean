/-!
# Rounding of quotients

## Main definitions

* `roundHalfEven`: the integer nearest to a quotient, ties to even.
* `tenTo`: the powers of ten.
-/

namespace LiveMap

/-- The integer nearest to `n / d`, the even one of two that are equally near. -/
def roundHalfEven (n d : Nat) : Nat :=
  let quotient := n / d
  let double := 2 * (n % d)
  if double < d then quotient
  else if d < double then quotient + 1
  else quotient + quotient % 2

def tenTo (k : Nat) : Nat := Nat.pow 10 k

end LiveMap
