import LiveMap.Geometry.PolarFactor
import LiveMap.Geometry.PoseError

/-!
# Quaternions

Rotations as unit quaternions, with the vector part first.

## Main definitions

* `Quaternion.toRotation`: the rotation of a quaternion of any length.
* `Mat3.toQuaternion`: the unit quaternion of a rotation matrix.
-/

namespace LiveMap

/-- A vector part and a scalar part. -/
@[ext] structure Quaternion (K : Type) where
  x : K
  y : K
  z : K
  w : K
  deriving DecidableEq, Repr

namespace Quaternion

variable {K : Type}

/-- The parts in order, the scalar one last. -/
def toList (q : Quaternion K) : List K := [q.x, q.y, q.z, q.w]

def toArray (q : Quaternion K) : NumArray K := .ofList q.toList

/-- The quaternion that an array with one axis of length four spells out. -/
def ofArray (a : NumArray K) : Except PoseError (Quaternion K) :=
  match a.shape, a.entries with
  | [4], [x, y, z, w] => .ok ⟨x, y, z, w⟩
  | shape, _ => .error (.quaternionShape shape)

@[simp] theorem ofArray_toArray (q : Quaternion K) : ofArray q.toArray = .ok q := rfl

variable [Scalar K]

def identity : Quaternion K := ⟨0, 0, 0, 1⟩

def norm (q : Quaternion K) : K :=
  Scalar.sqrt (q.x * q.x + q.y * q.y + q.z * q.z + q.w * q.w)

def normalize (q : Quaternion K) : Quaternion K :=
  let n := q.norm
  ⟨q.x / n, q.y / n, q.z / n, q.w / n⟩

/-- The rotation of a unit quaternion. -/
def toMatrix (q : Quaternion K) : Mat3 K :=
  let xx := q.x * q.x
  let yy := q.y * q.y
  let zz := q.z * q.z
  let ww := q.w * q.w
  ⟨⟨xx - yy - zz + ww, 2.0 * (q.x * q.y - q.z * q.w), 2.0 * (q.x * q.z + q.y * q.w)⟩,
   ⟨2.0 * (q.x * q.y + q.z * q.w), -xx + yy - zz + ww, 2.0 * (q.y * q.z - q.x * q.w)⟩,
   ⟨2.0 * (q.x * q.z - q.y * q.w), 2.0 * (q.y * q.z + q.x * q.w), -xx - yy + zz + ww⟩⟩

/-- The rotation of a quaternion of any length but zero. -/
def toRotation (q : Quaternion K) : Except PoseError (Mat3 K) :=
  if 0 < q.norm then .ok q.normalize.toMatrix else .error .quaternionWithoutDirection

end Quaternion

namespace Mat3

variable {K : Type} [Scalar K]

/-- A multiple of the quaternion of a rotation, read off where its largest part stands. -/
def quaternionDirection (m : Mat3 K) : Quaternion K :=
  let t := m.trace
  if m.y.y ≤ m.x.x ∧ m.z.z ≤ m.x.x ∧ t ≤ m.x.x then
    ⟨1 - t + 2.0 * m.x.x, m.y.x + m.x.y, m.z.x + m.x.z, m.z.y - m.y.z⟩
  else if m.z.z ≤ m.y.y ∧ t ≤ m.y.y then
    ⟨m.x.y + m.y.x, 1 - t + 2.0 * m.y.y, m.z.y + m.y.z, m.x.z - m.z.x⟩
  else if t ≤ m.z.z then
    ⟨m.x.z + m.z.x, m.y.z + m.z.y, 1 - t + 2.0 * m.z.z, m.y.x - m.x.y⟩
  else
    ⟨m.z.y - m.y.z, m.x.z - m.z.x, m.y.x - m.x.y, 1 + t⟩

/-- Every entry is bounded. -/
def IsFinite (m : Mat3 K) : Prop := m.x.IsFinite ∧ m.y.IsFinite ∧ m.z.IsFinite

instance (m : Mat3 K) : Decidable m.IsFinite := inferInstanceAs (Decidable (_ ∧ _ ∧ _))

/-- Rows that are orthonormal up to the tolerance of a conversion. -/
def IsNearlyOrthogonal (m : Mat3 K) : Prop :=
  ∀ p ∈ (m * m.transpose).toList.zip (identity : Mat3 K).toList,
    Scalar.abs (p.1 - p.2) ≤ 1e-12 + 1e-5 * Scalar.abs p.2

instance (m : Mat3 K) : Decidable m.IsNearlyOrthogonal :=
  inferInstanceAs (Decidable (∀ p ∈ _, _))

/-- The unit quaternion of a rotation matrix. A matrix that is off by more than the tolerance is
replaced by its orthogonal factor first. -/
def toQuaternion (m : Mat3 K) : Except PoseError (Quaternion K) :=
  if m.det ≤ 0 then .error .handednessLost
  else if m.IsNearlyOrthogonal then .ok m.quaternionDirection.normalize
  else if m.IsFinite then .ok m.polarFactor.quaternionDirection.normalize
  else .error .undefinedRotation

end Mat3

end LiveMap
