import LiveMap.Geometry.Matrix

/-!
# The nearest orthogonal matrix

Averaging a matrix with the inverse of its transpose keeps its singular directions and draws every
singular value to one, so the averages converge to the orthogonal factor of the matrix.

## Main definitions

* `Mat3.average`: one averaging step, after bringing the matrix and its inverse to one size.
* `Mat3.polarFactor`: the orthogonal factor of an invertible matrix.
-/

namespace LiveMap.Mat3

variable {K : Type} [Scalar K]

/-- The size of the largest entry. -/
def magnitude (m : Mat3 K) : K :=
  m.toList.foldl (fun size entry => Scalar.atLeast size (Scalar.abs entry)) 0

/-- The average of the matrix and the inverse of its transpose, after scaling both to one size. -/
def average (m : Mat3 K) : Mat3 K :=
  let d := m.det
  let dual := m.zipWith (fun _ c => c / d) m.cofactors
  let balance := Scalar.sqrt (dual.magnitude / m.magnitude)
  m.zipWith (fun a b => (balance * a + b / balance) / 2.0) dual

/-- The orthogonal factor of an invertible matrix. Scaling brings the singular values together from
any spread of the format in a few steps, and the steps after that double the exact digits. -/
def polarFactor (m : Mat3 K) : Mat3 K :=
  let size := m.magnitude
  Nat.repeat average 24 (m.zipWith (fun a _ => a / size) m)

end LiveMap.Mat3
