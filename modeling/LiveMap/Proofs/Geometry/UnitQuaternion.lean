import LiveMap.Message.Header
import LiveMap.Proofs.Geometry.Rotation

/-!
# Rotations as unit quaternions

The quaternion of a rotation matrix is read off at its largest part. It has a length, and the unit
quaternion in its direction stands for the same rotation. So a proper pose survives its messages.

## Main statements

* `Mat3.IsRotation.exists_toQuaternion`: a rotation has a unit quaternion, whose rotation it is.
* `Pose.IsProper.exists_relation`, `Pose.IsProper.exists_pose`, `Pose.IsProper.exists_odometry`: a
  proper pose has messages that stand for it.
-/

namespace LiveMap

namespace Quaternion

/-- The square of the length. -/
def normSq (q : Quaternion ℝ) : ℝ := q.x * q.x + q.y * q.y + q.z * q.z + q.w * q.w

theorem norm_eq_sqrt (q : Quaternion ℝ) : q.norm = √q.normSq := rfl

theorem norm_pos_iff {q : Quaternion ℝ} : 0 < q.norm ↔ 0 < q.normSq := Real.sqrt_pos

theorem norm_mul_norm {q : Quaternion ℝ} (h : 0 < q.normSq) : q.norm * q.norm = q.normSq :=
  Real.mul_self_sqrt h.le

theorem normSq_normalize {q : Quaternion ℝ} (h : 0 < q.normSq) : q.normalize.normSq = 1 := by
  have hnorm : q.norm ≠ 0 := (norm_pos_iff.mpr h).ne'
  have hsq := norm_mul_norm h
  simp only [normSq] at hsq
  simp only [normSq, normalize]
  field_simp
  linarith

theorem normalize_of_normSq_eq_one {q : Quaternion ℝ} (h : q.normSq = 1) : q.normalize = q := by
  simp [normalize, norm_eq_sqrt, h]

/-- The matrix of the quaternion is the matrix `m`, each entry multiplied by the square of the
length. -/
def Directs (q : Quaternion ℝ) (m : Mat3 ℝ) : Prop :=
  q.toMatrix = m.zipWith (fun entry _ => q.normSq * entry) m

theorem toMatrix_normalize {q : Quaternion ℝ} {m : Mat3 ℝ} (hq : 0 < q.normSq)
    (h : q.Directs m) : q.normalize.toMatrix = m := by
  have hnorm : q.norm ≠ 0 := (norm_pos_iff.mpr hq).ne'
  have hsq := norm_mul_norm hq
  simp only [Directs, toMatrix, Mat3.zipWith, ← hsq, Mat3.mk.injEq, Vec3.mk.injEq] at h
  ext <;> simp only [toMatrix, normalize] <;> field_simp <;> linarith

/-- The rows have the square of the length as their length, and are orthogonal. -/
theorem isRotation_toMatrix {q : Quaternion ℝ} (h : q.normSq = 1) : q.toMatrix.IsRotation := by
  obtain ⟨x, y, z, w⟩ := q
  have hunit : x * x + y * y + z * z + w * w = 1 := h
  refine ⟨⟨?_, ?_⟩, ?_⟩
  · ext <;> simp only [toMatrix, Mat3.mul_x, Mat3.mul_y, Mat3.mul_z, Mat3.mulVec, Mat3.transpose,
      Vec3.dot, Mat3.identity, Scalar.two_real] <;> grind
  · ext <;> simp only [toMatrix, Mat3.mul_x, Mat3.mul_y, Mat3.mul_z, Mat3.mulVec, Mat3.transpose,
      Vec3.dot, Mat3.identity, Scalar.two_real] <;> grind
  · simp only [toMatrix, Mat3.det, Mat3.cofactors, Vec3.dot, Scalar.two_real]
    grind

end Quaternion

namespace Mat3

/-- The rows and columns are orthonormal, and each row is the cross product of the two others. -/
theorem IsRotation.entries {a b c d e f g h i : ℝ}
    (hm : IsRotation ⟨⟨a, b, c⟩, ⟨d, e, f⟩, ⟨g, h, i⟩⟩) :
    (a * a + b * b + c * c = 1 ∧ d * d + e * e + f * f = 1 ∧ g * g + h * h + i * i = 1) ∧
    (a * a + d * d + g * g = 1 ∧ b * b + e * e + h * h = 1 ∧ c * c + f * f + i * i = 1) ∧
    (a * d + b * e + c * f = 0 ∧ a * g + b * h + c * i = 0 ∧ d * g + e * h + f * i = 0) ∧
    (a * b + d * e + g * h = 0 ∧ a * c + d * f + g * i = 0 ∧ b * c + e * f + h * i = 0) ∧
    (e * i - f * h = a ∧ f * g - d * i = b ∧ d * h - e * g = c) ∧
    (c * h - b * i = d ∧ a * i - c * g = e ∧ b * g - a * h = f) ∧
    b * f - c * e = g ∧ c * d - a * f = h ∧ a * e - b * d = i := by
  have hrows := hm.mul_transpose
  have hcolumns := hm.transpose_mul_self
  have hcross := hm.cofactors_eq
  simp only [Mat3.ext_iff, Vec3.ext_iff, mul_x, mul_y, mul_z, mulVec, Mat3.transpose, Vec3.dot,
    identity] at hrows hcolumns
  simp only [cofactors, Mat3.mk.injEq, Vec3.mk.injEq] at hcross
  tauto

/-- Four times the squared parts of the unit quaternion add up to four, so the largest of them,
which the direction is read off at, is at least one. -/
theorem IsRotation.quaternionDirection_directs {m : Mat3 ℝ} (hm : m.IsRotation) :
    0 < m.quaternionDirection.normSq ∧ m.quaternionDirection.Directs m := by
  obtain ⟨⟨a, b, c⟩, ⟨d, e, f⟩, ⟨g, h, i⟩⟩ := m
  obtain ⟨⟨_, _, _⟩, ⟨_, _, _⟩, ⟨_, _, _⟩, ⟨_, _, _⟩, ⟨_, _, _⟩, ⟨_, _, _⟩, _, _, _⟩ := hm.entries
  unfold quaternionDirection trace
  dsimp only
  rw [Scalar.two_real]
  split_ifs with hx hy hz
  · have hsq : Quaternion.normSq ⟨1 - (a + e + i) + 2 * a, d + b, g + c, h - f⟩ =
        4 * (1 - (a + e + i) + 2 * a) := by
      simp only [Quaternion.normSq]
      grind
    refine ⟨by linarith, ?_⟩
    rw [Quaternion.Directs, hsq]
    ext <;> simp only [Quaternion.toMatrix, zipWith, Scalar.two_real] <;> grind
  · have hsq : Quaternion.normSq ⟨b + d, 1 - (a + e + i) + 2 * e, h + f, c - g⟩ =
        4 * (1 - (a + e + i) + 2 * e) := by
      simp only [Quaternion.normSq]
      grind
    have hae : a ≤ e := by
      by_contra! hlt
      exact hx ⟨hlt.le, by linarith, by linarith⟩
    refine ⟨by linarith, ?_⟩
    rw [Quaternion.Directs, hsq]
    ext <;> simp only [Quaternion.toMatrix, zipWith, Scalar.two_real] <;> grind
  · have hsq : Quaternion.normSq ⟨c + g, f + h, 1 - (a + e + i) + 2 * i, d - b⟩ =
        4 * (1 - (a + e + i) + 2 * i) := by
      simp only [Quaternion.normSq]
      grind
    have hei : e ≤ i := by
      by_contra! hlt
      exact hy ⟨hlt.le, by linarith⟩
    have hai : a ≤ i := by
      by_contra! hlt
      exact hx ⟨by linarith, hlt.le, by linarith⟩
    refine ⟨by linarith, ?_⟩
    rw [Quaternion.Directs, hsq]
    ext <;> simp only [Quaternion.toMatrix, zipWith, Scalar.two_real] <;> grind
  · have hsq : Quaternion.normSq ⟨h - f, c - g, d - b, 1 + (a + e + i)⟩ =
        4 * (1 + (a + e + i)) := by
      simp only [Quaternion.normSq]
      grind
    have het : e ≤ a + e + i := by
      by_contra! hlt
      exact hy ⟨by linarith, hlt.le⟩
    have hat : a ≤ a + e + i := by
      by_contra! hlt
      exact hx ⟨by linarith, by linarith, hlt.le⟩
    refine ⟨by linarith, ?_⟩
    rw [Quaternion.Directs, hsq]
    ext <;> simp only [Quaternion.toMatrix, zipWith, Scalar.two_real] <;> grind

theorem IsRotation.isNearlyOrthogonal {m : Mat3 ℝ} (hm : m.IsRotation) : m.IsNearlyOrthogonal := by
  intro p hp
  rw [hm.mul_transpose] at hp
  have hdiff : p.1 - p.2 = 0 := by
    obtain ⟨place, hplace, rfl⟩ := List.getElem_of_mem hp
    simp
  rw [Scalar.abs_real, Scalar.abs_real, hdiff, abs_zero]
  positivity

/-- A rotation has a unit quaternion, whose rotation it is. -/
theorem IsRotation.exists_toQuaternion {m : Mat3 ℝ} (hm : m.IsRotation) :
    ∃ q : Quaternion ℝ, m.toQuaternion = .ok q ∧ q.normSq = 1 ∧ q.toMatrix = m := by
  obtain ⟨hpos, hdirects⟩ := hm.quaternionDirection_directs
  have hdet : ¬ m.det ≤ 0 := by
    rw [hm.2]
    exact not_le.mpr one_pos
  refine ⟨m.quaternionDirection.normalize, ?_, Quaternion.normSq_normalize hpos,
    Quaternion.toMatrix_normalize hpos hdirects⟩
  rw [toQuaternion, if_neg hdet, if_pos hm.isNearlyOrthogonal]

end Mat3

/-! ## Messages of proper poses -/

theorem Quaternion.toRotation_of_normSq_pos {q : Quaternion ℝ} (h : 0 < q.normSq) :
    q.toRotation = .ok q.normalize.toMatrix :=
  if_pos (Quaternion.norm_pos_iff.mpr h)

theorem Pose.ofQuaternion_of_normSq_pos {q : Quaternion ℝ} (h : 0 < q.normSq) (t : Vec3 ℝ) :
    Pose.ofQuaternion (.ofArray q.toArray) (.ofArray (.ofVec3 t)) =
      .ok ⟨q.normalize.toMatrix, t⟩ := by
  simp [ofQuaternion, Quaternion.toRotation_of_normSq_pos h, withTranslation, bind, Except.bind]

theorem Pose.ofQuaternion_of_normSq_eq_one {q : Quaternion ℝ} (h : q.normSq = 1) (t : Vec3 ℝ) :
    Pose.ofQuaternion (.ofArray q.toArray) (.ofArray (.ofVec3 t)) = .ok ⟨q.toMatrix, t⟩ := by
  rw [ofQuaternion_of_normSq_pos (h ▸ one_pos), Quaternion.normalize_of_normSq_eq_one h]

theorem Quaternion.isRotation_of_toRotation {q : Quaternion ℝ} {m : Mat3 ℝ}
    (h : q.toRotation = .ok m) : m.IsRotation := by
  unfold toRotation at h
  split at h
  next hpos =>
    obtain rfl := Except.ok.inj h
    exact isRotation_toMatrix (normSq_normalize (norm_pos_iff.mp hpos))
  next => cases h

theorem Pose.rotation_of_withTranslation {K : Type} {r : Mat3 K} {t : ArrayLiteral K} {T : Pose K}
    (h : withTranslation r t = .ok T) : T.rotation = r := by
  unfold withTranslation at h
  obtain ⟨array, -, harrays⟩ := exists_of_bind_eq_ok h
  unfold ofArrays at harrays
  rw [Mat3.ofArray?_toArray] at harrays
  split at harrays
  next hnone => cases hnone
  next => cases harrays
  next hr _ =>
    obtain rfl := Option.some.inj hr
    obtain rfl := Except.ok.inj harrays
    rfl

/-- A quaternion of any length but zero tells a rotation, so a message that tells a pose tells a
proper one. -/
theorem StampedTransform.isProper_of_toPose {m : StampedTransform ℝ} {T : Pose ℝ}
    (h : m.toPose = .ok T) : T.IsProper := by
  obtain ⟨_, -, hquaternion⟩ := exists_of_bind_eq_ok h
  obtain ⟨q, -, hrotation⟩ := exists_of_bind_eq_ok hquaternion
  obtain ⟨r, hr, htranslation⟩ := exists_of_bind_eq_ok hrotation
  rw [Pose.IsProper, Pose.rotation_of_withTranslation htranslation]
  exact Quaternion.isRotation_of_toRotation hr

/-- The message is the relation `T` of a child to a parent at a time. -/
structure StampedTransform.Tells (m : StampedTransform ℝ) (parent child : String) (stamp : ℝ)
    (T : Pose ℝ) : Prop where
  header : m.header = ⟨stamp, parent⟩
  child : m.child = child
  pose : m.toPose = .ok T

/-- The pose that a message stands for. -/
noncomputable def StampedPose.toPose (m : StampedPose ℝ) : Except PoseError (Pose ℝ) :=
  Pose.ofQuaternion (.ofArray m.orientation.toArray) (.ofArray (.ofVec3 m.position))

/-- The message is the pose `T` in a frame at a time. -/
structure StampedPose.Tells (m : StampedPose ℝ) (frame : String) (stamp : ℝ) (T : Pose ℝ) :
    Prop where
  header : m.header = ⟨stamp, frame⟩
  pose : m.toPose = .ok T

/-- The pose that a message stands for. -/
noncomputable def Odometry.toPose (m : Odometry ℝ) : Except PoseError (Pose ℝ) :=
  Pose.ofQuaternion (.ofArray m.orientation.toArray) (.ofArray (.ofVec3 m.position))

/-- The message is the pose `T` of a child in a frame at a time. -/
structure Odometry.Tells (m : Odometry ℝ) (frame child : String) (stamp : ℝ) (T : Pose ℝ) :
    Prop where
  header : m.header = ⟨stamp, frame⟩
  child : m.child = child
  pose : m.toPose = .ok T

section OfQuaternion

variable {T : Pose ℝ} {q : Quaternion ℝ}

theorem StampedTransform.ofPose_of_toQuaternion (h : T.rotation.toQuaternion = .ok q)
    (parent child : String) (stamp : ℝ) : StampedTransform.ofPose parent child stamp T =
      .ok ⟨⟨stamp, parent⟩, child, .ofVec3 T.translation, q.toArray⟩ := by
  rw [ofPose, h]
  rfl

theorem StampedPose.ofPose_of_toQuaternion (h : T.rotation.toQuaternion = .ok q) (frame : String)
    (stamp : ℝ) : StampedPose.ofPose frame stamp T = .ok ⟨⟨stamp, frame⟩, T.translation, q⟩ := by
  rw [ofPose, h]
  rfl

theorem Odometry.ofPose_of_toQuaternion (h : T.rotation.toQuaternion = .ok q)
    (frame child : String) (stamp : ℝ) : Odometry.ofPose frame child stamp T =
      .ok ⟨⟨stamp, frame⟩, child, T.translation, q⟩ := by
  rw [ofPose, h]
  rfl

end OfQuaternion

namespace Pose.IsProper

variable {T : Pose ℝ}

theorem exists_quaternion (hT : T.IsProper) : ∃ q : Quaternion ℝ, T.rotation.toQuaternion = .ok q ∧
    Pose.ofQuaternion (.ofArray q.toArray) (.ofArray (.ofVec3 T.translation)) = .ok T := by
  obtain ⟨q, hq, hunit, hmatrix⟩ := Mat3.IsRotation.exists_toQuaternion hT
  refine ⟨q, hq, ?_⟩
  rw [Pose.ofQuaternion_of_normSq_eq_one hunit, hmatrix]

theorem exists_relation (hT : T.IsProper) (parent child : String) (stamp : ℝ) :
    ∃ m, StampedTransform.ofPose parent child stamp T = .ok m ∧ m.Tells parent child stamp T := by
  obtain ⟨q, hq, hpose⟩ := hT.exists_quaternion
  exact ⟨_, StampedTransform.ofPose_of_toQuaternion hq parent child stamp, rfl, rfl, hpose⟩

theorem exists_pose (hT : T.IsProper) (frame : String) (stamp : ℝ) :
    ∃ m, StampedPose.ofPose frame stamp T = .ok m ∧ m.Tells frame stamp T := by
  obtain ⟨q, hq, hpose⟩ := hT.exists_quaternion
  exact ⟨_, StampedPose.ofPose_of_toQuaternion hq frame stamp, rfl, hpose⟩

theorem exists_odometry (hT : T.IsProper) (frame child : String) (stamp : ℝ) :
    ∃ m, Odometry.ofPose frame child stamp T = .ok m ∧ m.Tells frame child stamp T := by
  obtain ⟨q, hq, hpose⟩ := hT.exists_quaternion
  exact ⟨_, Odometry.ofPose_of_toQuaternion hq frame child stamp, rfl, rfl, hpose⟩

end Pose.IsProper

end LiveMap
