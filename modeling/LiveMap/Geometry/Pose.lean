import LiveMap.Geometry.Quaternion
import LiveMap.Geometry.RotationVector
import LiveMap.Numeric.Decimal

/-!
# Poses

A pose `T_a_b` takes coordinates in frame `b` to coordinates in frame `a`: it turns, then shifts.
Composition chains frames from left to right, so `T_a_b.compose T_b_c` is `T_a_c`.

## Main definitions

* `Pose` with `Pose.identity`, `Pose.compose`, `Pose.inverse` and `Pose.apply`.
* `Pose.ofMatrix`, `Pose.ofRotationVector`, `Pose.ofQuaternion`: poses from arrays.
* `Pose.transformPoints`: arrays of points, a flat triple counting as one point.
* `Pose.isClose`: agreement up to a tolerance.
-/

namespace LiveMap

/-- A rotation followed by a translation. -/
@[ext] structure Pose (K : Type) where
  rotation : Mat3 K
  translation : Vec3 K
  deriving DecidableEq, Repr

namespace Pose

variable {K : Type}

/-! ## Poses from arrays -/

/-- The pose of a rotation matrix and three coordinates of any shape. When both are wrong, the
rotation is reported. -/
def ofArrays (rotation translation : NumArray K) : Except PoseError (Pose K) :=
  match Mat3.ofArray? rotation, translation.vec3? with
  | none, _ => .error (.rotationShape rotation.shape)
  | some _, none => .error (.translationShape translation.flatten.shape)
  | some r, some t => .ok ⟨r, t⟩

@[simp] theorem ofArrays_toArray (r : Mat3 K) (t : Vec3 K) :
    ofArrays r.toArray (.ofVec3 t) = .ok ⟨r, t⟩ := by
  simp [ofArrays]

/-- The pose of a literal rotation and translation. -/
def ofRotation (rotation translation : ArrayLiteral K) : Except PoseError (Pose K) := do
  let r ← rotation.toArray
  let t ← translation.toArray
  ofArrays r t

/-- A rotation that is known, with a translation still to be read. -/
def withTranslation (rotation : Mat3 K) (translation : ArrayLiteral K) :
    Except PoseError (Pose K) := do
  let t ← translation.toArray
  ofArrays rotation.toArray t

/-- The upper left block of a four by four matrix and the top of its last column; the last row is
not looked at. -/
def ofMatrix (matrix : ArrayLiteral K) : Except PoseError (Pose K) := do
  let m ← matrix.toArray
  match m.shape, m.entries with
  | [4, 4], [a, b, c, x, d, e, f, y, g, h, i, z, _, _, _, _] =>
    return ⟨⟨⟨a, b, c⟩, ⟨d, e, f⟩, ⟨g, h, i⟩⟩, ⟨x, y, z⟩⟩
  | shape, _ => throw (.transformShape shape)

variable [Scalar K]

def ofRotationVector (vector translation : ArrayLiteral K) : Except PoseError (Pose K) := do
  let v ← vector.toArray
  match v.vec3? with
  | some r => withTranslation (rotationOfVector r) translation
  | none => throw (.rotationVectorLength v.entries.length)

/-- The pose of a quaternion of any length but zero and a translation. -/
def ofQuaternion (quaternion translation : ArrayLiteral K) : Except PoseError (Pose K) := do
  let q ← Quaternion.ofArray (← quaternion.toArray)
  withTranslation (← q.toRotation) translation

/-! ## The group of poses -/

/-- No rotation and no translation. -/
def identity : Pose K := ⟨.identity, .zero⟩

instance : Inhabited (Pose K) := ⟨identity⟩

/-- The point that the pose takes `p` to. -/
def apply (T : Pose K) (p : Vec3 K) : Vec3 K := T.rotation.mulVec p + T.translation

/-- The pose that applies `U`, then `T`. -/
def compose (T U : Pose K) : Pose K := ⟨T.rotation * U.rotation, T.apply U.translation⟩

/-- The pose of the transposed rotation that undoes `T` when the rotation is orthogonal. -/
def inverse (T : Pose K) : Pose K :=
  let back := T.rotation.transpose
  ⟨back, Mat3.mulVec ⟨-back.x, -back.y, -back.z⟩ T.translation⟩

/-- The translation with one coordinate replaced, counting from the front, or from the back for a
negative place. -/
def setTranslation? (T : Pose K) (place : Int) (value : K) : Option (Pose K) :=
  let t := T.translation
  if place = 0 ∨ place = -3 then some { T with translation := { t with x := value } }
  else if place = 1 ∨ place = -2 then some { T with translation := { t with y := value } }
  else if place = 2 ∨ place = -1 then some { T with translation := { t with z := value } }
  else none

/-- The four by four matrix, row by row. -/
def toMatrix (T : Pose K) : List (List K) :=
  [T.rotation.x.toList ++ [T.translation.x],
   T.rotation.y.toList ++ [T.translation.y],
   T.rotation.z.toList ++ [T.translation.z],
   [0, 0, 0, 1]]

/-! ## Points -/

def mapPoints (T : Pose K) (ps : List (Vec3 K)) : List (Vec3 K) := ps.map T.apply

/-- The points of an array, taken by the pose. An array with one axis is one point. -/
def transformPoints (T : Pose K) (points : NumArray K) : Except PoseError (List (Vec3 K)) :=
  match points.shape, points.points?, points.vec3? with
  | _, some ps, _ => .ok (T.mapPoints ps)
  | [_], none, some p => .ok (T.mapPoints [p])
  | [n], none, none => .error (.pointLength n)
  | shape, none, _ => .error (.pointsShape shape)

@[simp] theorem transformPoints_ofPoints (T : Pose K) (ps : List (Vec3 K)) :
    T.transformPoints (.ofPoints ps) = .ok (T.mapPoints ps) := by
  simp [transformPoints]

/-- The point of three entries of any shape, taken by the pose. -/
def transformPoint (T : Pose K) (point : NumArray K) : Except PoseError (Vec3 K) :=
  match point.vec3? with
  | some p => .ok (T.apply p)
  | none => .error (.pointLength point.entries.length)

/-! ## Comparison -/

/-- Whether two entries agree: both bounded and apart by at most `tolerance` and a part of the
second one's size, or equal. -/
def entriesClose (tolerance a b : K) : Bool :=
  (decide (Scalar.IsFinite b) && decide (Scalar.abs (a - b) ≤ tolerance + 1e-5 * Scalar.abs b))
    || decide (Scalar.Equal a b)

/-- Whether all entries of two poses agree. -/
def isClose (T U : Pose K) (tolerance : K) : Bool :=
  let entries (V : Pose K) : List K := V.rotation.toList ++ V.translation.toList
  (List.zipWith (entriesClose tolerance) (entries T) (entries U)).all id

end Pose

/-- The place of a pose, for people to read. -/
def Pose.describe (T : Pose Float) : String :=
  let coordinates := T.translation.toList.map (fixedPlaces 3)
  "SE3(position=[" ++ ", ".intercalate coordinates ++ "])"

end LiveMap
