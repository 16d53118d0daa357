import LiveMap.Geometry.PolarFactor

/-!
# Rotation vectors

A rotation as the direction of its axis times its angle.

## Main definitions

* `rotationOfVector`: the rotation about a vector by its length.
* `Mat3.rotationVector`: the way back, through the nearest orthogonal matrix.
-/

namespace LiveMap

variable {K : Type} [Scalar K]

/-- The rotation about the vector, by its length. -/
def rotationOfVector (r : Vec3 K) : Mat3 K :=
  let angle := r.norm
  if angle < 2.220446049250313e-16 then .identity
  else
    let k : Vec3 K := ⟨r.x / angle, r.y / angle, r.z / angle⟩
    let c := Scalar.cos angle
    let s := Scalar.sin angle
    let d := 1 - c
    ⟨⟨c + d * (k.x * k.x), d * (k.x * k.y) - s * k.z, d * (k.x * k.z) + s * k.y⟩,
     ⟨d * (k.x * k.y) + s * k.z, c + d * (k.y * k.y), d * (k.y * k.z) - s * k.x⟩,
     ⟨d * (k.x * k.z) - s * k.y, d * (k.y * k.z) + s * k.x, c + d * (k.z * k.z)⟩⟩

namespace Mat3

/-- The axis of half a turn, each part up to the sign that the products of two parts fix. -/
def halfTurnAxis (m : Mat3 K) : Vec3 K :=
  let part (entry : K) : K := Scalar.sqrt (Scalar.atLeast ((entry + 1) / 2.0) 0)
  let x := part m.x.x
  let y := if m.x.y < 0 then -part m.y.y else part m.y.y
  let z := if m.x.z < 0 then -part m.z.z else part m.z.z
  let contradicted := decide (0 < m.y.z) != decide (0 < y * z)
  if Scalar.abs x < Scalar.abs y ∧ Scalar.abs x < Scalar.abs z ∧ contradicted then ⟨x, y, -z⟩
  else ⟨x, y, z⟩

/-- The axis times the angle of an orthogonal matrix. -/
def axisAngle (m : Mat3 K) : Vec3 K :=
  let v : Vec3 K := ⟨m.z.y - m.y.z, m.x.z - m.z.x, m.y.x - m.x.y⟩
  let s := Scalar.sqrt (v.dot v / 4.0)
  let c := Scalar.clamp (-1) 1 ((m.trace - 1) / 2.0)
  let angle := Scalar.acos c
  if s < 1e-5 then
    if 0 < c then .zero
    else
      let axis := m.halfTurnAxis
      axis.scale (angle / axis.norm)
  else v.scale (angle / (2.0 * s))

/-- Entries from -100 up to 100, the largest that are converted. -/
def IsConvertible (m : Mat3 K) : Prop := ∀ entry ∈ m.toList, -100.0 ≤ entry ∧ entry < 100.0

instance (m : Mat3 K) : Decidable m.IsConvertible :=
  inferInstanceAs (Decidable (∀ entry ∈ m.toList, _))

/-- The rotation vector of the orthogonal matrix nearest to `m`; none is sought for entries that are
undefined or too large, and the result is zero. -/
def rotationVector (m : Mat3 K) : Vec3 K :=
  if m.IsConvertible then m.polarFactor.axisAngle else .zero

end Mat3

end LiveMap
