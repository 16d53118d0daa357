import LiveMap.Proofs.Geometry.UnitQuaternion

/-!
# Poses and their messages

A message carries the rotation of a pose as a quaternion. The pose is read back from it, and from
the quaternion at any other length as well, because only its direction counts; and whatever
direction a quaternion has, it stands for a rotation.

## Main definitions

* `Quaternion.scale`: a multiple of a quaternion.

## Main statements

* `Quaternion.toMatrix_normalize_scale`: the rotation of a multiple.
* `Pose.message_forms`: a proper pose in its messages and back, and the pose of any quaternion.
-/

namespace LiveMap

namespace Quaternion

/-- A multiple of a quaternion. -/
def scale (k : ℝ) (q : Quaternion ℝ) : Quaternion ℝ := ⟨k * q.x, k * q.y, k * q.z, k * q.w⟩

theorem normSq_scale (k : ℝ) (q : Quaternion ℝ) : (q.scale k).normSq = k * k * q.normSq := by
  simp only [normSq, scale]
  ring

/-- Every entry of the matrix is quadratic in the parts. -/
theorem directs_scale (k : ℝ) {q : Quaternion ℝ} (h : q.normSq = 1) :
    (q.scale k).Directs q.toMatrix := by
  rw [Directs, normSq_scale, h]
  ext <;> simp only [toMatrix, scale, Mat3.zipWith, Scalar.two_real] <;> ring

theorem normSq_scale_pos {k : ℝ} (hk : k ≠ 0) {q : Quaternion ℝ} (h : q.normSq = 1) :
    0 < (q.scale k).normSq := by
  rw [normSq_scale, h, mul_one]
  exact mul_self_pos.mpr hk

/-- The length and the sign of a multiple do not show in its rotation. -/
theorem toMatrix_normalize_scale {k : ℝ} (hk : k ≠ 0) {q : Quaternion ℝ} (h : q.normSq = 1) :
    (q.scale k).normalize.toMatrix = q.toMatrix :=
  toMatrix_normalize (normSq_scale_pos hk h) (directs_scale k h)

theorem normSq_pos {q : Quaternion ℝ} (h : q ≠ ⟨0, 0, 0, 0⟩) : 0 < q.normSq := by
  obtain ⟨x, y, z, w⟩ := q
  by_contra! hle
  have hparts : x * x = 0 ∧ y * y = 0 ∧ z * z = 0 ∧ w * w = 0 := by
    simp only [normSq] at hle
    have hx := mul_self_nonneg x
    have hy := mul_self_nonneg y
    have hz := mul_self_nonneg z
    have hw := mul_self_nonneg w
    exact ⟨by linarith, by linarith, by linarith, by linarith⟩
  simp only [mul_self_eq_zero] at hparts
  obtain ⟨rfl, rfl, rfl, rfl⟩ := hparts
  exact h rfl

theorem norm_eq_one_of_normSq_eq_one {q : Quaternion ℝ} (h : q.normSq = 1) : q.norm = 1 := by
  rw [norm_eq_sqrt, h, Real.sqrt_one]

end Quaternion

namespace Pose

/-- The rotation of a proper pose has a quaternion of length one. The relation, the pose and the
odometry that are told of a proper pose carry that quaternion and its translation, and the relation
stands for it. The quaternion at any other length but zero, with the translation, gives it again.
Every quaternion but zero gives a proper pose. -/
theorem message_forms (frame child : String) (stamp : ℝ) :
    (∀ T : Pose ℝ, T.IsProper → ∃ q, T.rotation.toQuaternion = .ok q ∧ q.norm = 1 ∧
      (∃ m, StampedTransform.ofPose frame child stamp T = .ok m ∧
        m.Tells frame child stamp T ∧ m.translation = .ofVec3 T.translation ∧
        m.rotation = q.toArray) ∧
      StampedPose.ofPose frame stamp T = .ok ⟨⟨stamp, frame⟩, T.translation, q⟩ ∧
      Odometry.ofPose frame child stamp T = .ok ⟨⟨stamp, frame⟩, child, T.translation, q⟩ ∧
      ∀ k, k ≠ 0 → ofQuaternion (.ofArray (q.scale k).toArray) (.ofArray (.ofVec3 T.translation)) =
        .ok T) ∧
    ∀ (q : Quaternion ℝ) (t : Vec3 ℝ), q ≠ ⟨0, 0, 0, 0⟩ →
      ∃ T, ofQuaternion (.ofArray q.toArray) (.ofArray (.ofVec3 t)) = .ok T ∧
        T.translation = t ∧ T.IsProper := by
  constructor
  · intro T hT
    obtain ⟨q, hq, hunit, hmatrix⟩ := Mat3.IsRotation.exists_toQuaternion hT
    have hpose : ofQuaternion (.ofArray q.toArray) (.ofArray (.ofVec3 T.translation)) = .ok T := by
      rw [ofQuaternion_of_normSq_eq_one hunit, hmatrix]
    have hrelation := StampedTransform.ofPose_of_toQuaternion hq frame child stamp
    refine ⟨q, hq, Quaternion.norm_eq_one_of_normSq_eq_one hunit,
      ⟨_, hrelation, ⟨rfl, rfl, hpose⟩, rfl, rfl⟩,
      StampedPose.ofPose_of_toQuaternion hq frame stamp,
      Odometry.ofPose_of_toQuaternion hq frame child stamp, fun k hk => ?_⟩
    rw [ofQuaternion_of_normSq_pos (Quaternion.normSq_scale_pos hk hunit),
      Quaternion.toMatrix_normalize_scale hk hunit, hmatrix]
  · intro q t hq
    have hpos := Quaternion.normSq_pos hq
    exact ⟨_, ofQuaternion_of_normSq_pos hpos t, rfl,
      Quaternion.isRotation_toMatrix (Quaternion.normSq_normalize hpos)⟩

/-- Half a turn, for which the trace is as small as it gets. -/
noncomputable def halfTurn : Pose ℝ := ⟨⟨⟨-1, 0, 0⟩, ⟨0, -1, 0⟩, ⟨0, 0, 1⟩⟩, ⟨1, 0, -1⟩⟩

theorem message_forms_halfTurn :
    halfTurn.IsProper ∧ (-2 : ℝ) ≠ 0 ∧ (⟨0, 0, 5, 0⟩ : Quaternion ℝ) ≠ ⟨0, 0, 0, 0⟩ ∧
    (∃ q, halfTurn.rotation.toQuaternion = .ok q ∧ q.norm = 1 ∧
      ofQuaternion (.ofArray (q.scale (-2)).toArray) (.ofArray (.ofVec3 halfTurn.translation)) =
        .ok halfTurn) ∧
    ∃ T, ofQuaternion (.ofArray (⟨0, 0, 5, 0⟩ : Quaternion ℝ).toArray) (.ofArray (.ofVec3 .zero)) =
      .ok T ∧ T.IsProper := by
  have hproper : halfTurn.IsProper := by
    refine ⟨⟨?_, ?_⟩, ?_⟩
    · ext <;> simp [halfTurn, Mat3.mulVec, Mat3.transpose, Vec3.dot, Mat3.identity]
    · ext <;> simp [halfTurn, Mat3.mulVec, Mat3.transpose, Vec3.dot, Mat3.identity]
    · simp [halfTurn, Mat3.det, Mat3.cofactors, Vec3.dot]
  have hk : (-2 : ℝ) ≠ 0 := by norm_num
  have hq : (⟨0, 0, 5, 0⟩ : Quaternion ℝ) ≠ ⟨0, 0, 0, 0⟩ := by simp
  obtain ⟨hforms, hback⟩ := message_forms "odom" "imu" 0
  obtain ⟨q, hquaternion, hnorm, -, -, -, hscaled⟩ := hforms halfTurn hproper
  obtain ⟨T, hT, -, hTproper⟩ := hback _ .zero hq
  exact ⟨hproper, hk, hq, ⟨q, hquaternion, hnorm, hscaled _ hk⟩, T, hT, hTproper⟩

end Pose

end LiveMap
