import LiveMap.Scalar

/-!
# Bounded rate

An iteration that was faster than the period sleeps for the rest of it.

## Main definitions

* `throttle`: the sleep that is asked for, if any.
* `slept`: its length.
-/

namespace LiveMap

variable {K : Type} [Scalar K]

/-- The sleep asked for after `elapsed` seconds of work: the rest of the period, and none when
nothing is left. An overrun is not carried over. -/
def throttle (period elapsed : K) : Option K :=
  if period - elapsed ≤ 0 then none else some (period - elapsed)

/-- The length of a sleep, zero for none. -/
def slept (sleep : Option K) : K := sleep.getD 0

end LiveMap
