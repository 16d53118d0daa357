import LiveMap.Geometry.Pose
import LiveMap.Proofs.Reals

/-!
# Rotations and proper poses

Over the real numbers rotation matrices are closed under products and transposition, a rotation is
its own matrix of cofactors, and the poses with a rotation form a group under composition.

## Main statements

* `Mat3.IsRotation.mul`, `Mat3.IsRotation.transpose`, `Mat3.IsRotation.cofactors_eq`.
* `Pose.compose_assoc`, `Pose.IsProper.inverse_compose`, `Pose.IsProper.inverse_eq_self_iff`.
-/

namespace LiveMap

namespace Mat3

section Entries

variable {K : Type} [Scalar K]

@[simp] theorem mul_x (m n : Mat3 K) : (m * n).x = n.transpose.mulVec m.x := rfl

@[simp] theorem mul_y (m n : Mat3 K) : (m * n).y = n.transpose.mulVec m.y := rfl

@[simp] theorem mul_z (m n : Mat3 K) : (m * n).z = n.transpose.mulVec m.z := rfl

end Entries

theorem mul_assoc (m n p : Mat3 ℝ) : m * n * p = m * (n * p) := by
  ext <;> simp only [mul_x, mul_y, mul_z, mulVec, transpose, Vec3.dot] <;> ring

@[simp] theorem mul_identity (m : Mat3 ℝ) : m * identity = m := by
  ext <;> simp [mulVec, transpose, Vec3.dot, identity]

@[simp] theorem identity_mul (m : Mat3 ℝ) : identity * m = m := by
  ext <;> simp [mulVec, transpose, Vec3.dot, identity]

theorem transpose_mul (m n : Mat3 ℝ) : (m * n).transpose = n.transpose * m.transpose := by
  ext <;> simp only [mul_x, mul_y, mul_z, mulVec, transpose, Vec3.dot] <;> ring

theorem det_mul (m n : Mat3 ℝ) : (m * n).det = m.det * n.det := by
  simp only [det, cofactors, mul_x, mul_y, mul_z, mulVec, transpose, Vec3.dot]
  ring

theorem det_transpose (m : Mat3 ℝ) : m.transpose.det = m.det := by
  simp only [det, cofactors, transpose, Vec3.dot]
  ring

@[simp] theorem identity_mulVec (v : Vec3 ℝ) : (identity : Mat3 ℝ).mulVec v = v := by
  ext <;> simp [mulVec, Vec3.dot, identity]

theorem mulVec_mulVec (m n : Mat3 ℝ) (v : Vec3 ℝ) : m.mulVec (n.mulVec v) = (m * n).mulVec v := by
  ext <;> simp only [mul_x, mul_y, mul_z, mulVec, transpose, Vec3.dot] <;> ring

theorem mulVec_dot (m : Mat3 ℝ) (u v : Vec3 ℝ) :
    (m.mulVec u).dot v = u.dot (m.transpose.mulVec v) := by
  simp only [mulVec, transpose, Vec3.dot]
  ring

/-- A matrix with orthonormal columns leaves inner products as they are. -/
theorem IsOrthogonal.mulVec_dot_mulVec {m : Mat3 ℝ} (h : m.IsOrthogonal) (u v : Vec3 ℝ) :
    (m.mulVec u).dot (m.mulVec v) = u.dot v := by
  rw [mulVec_dot, mulVec_mulVec, h.2, identity_mulVec]

theorem mul_transpose_cofactors {m : Mat3 ℝ} (h : m.det = 1) :
    m * m.cofactors.transpose = identity := by
  simp only [det, cofactors, Vec3.dot] at h
  ext <;> simp only [mul_x, mul_y, mul_z, mulVec, transpose_transpose, cofactors, Vec3.dot,
    identity] <;> linarith

/-! ## The group of rotations -/

theorem isRotation_identity : (identity : Mat3 ℝ).IsRotation := by
  refine ⟨⟨?_, ?_⟩, ?_⟩
  · exact identity_mul _
  · exact mul_identity _
  · simp [det, cofactors, Vec3.dot, identity]

namespace IsRotation

variable {m n : Mat3 ℝ}

theorem mul_transpose (h : m.IsRotation) : m * m.transpose = identity := h.1.1

theorem transpose_mul_self (h : m.IsRotation) : m.transpose * m = identity := h.1.2

theorem transpose (h : m.IsRotation) : m.transpose.IsRotation :=
  ⟨⟨h.transpose_mul_self, h.mul_transpose⟩, (det_transpose m).trans h.2⟩

theorem mul (hm : m.IsRotation) (hn : n.IsRotation) : (m * n).IsRotation := by
  refine ⟨⟨?_, ?_⟩, ?_⟩
  · calc m * n * (m * n).transpose
        = m * (n * n.transpose) * m.transpose := by simp only [Mat3.transpose_mul, mul_assoc]
      _ = identity := by rw [hn.mul_transpose, mul_identity, hm.mul_transpose]
  · calc (m * n).transpose * (m * n)
        = n.transpose * (m.transpose * m) * n := by simp only [Mat3.transpose_mul, mul_assoc]
      _ = identity := by rw [hm.transpose_mul_self, mul_identity, hn.transpose_mul_self]
  · rw [det_mul, hm.2, hn.2, one_mul]

/-- The transpose undoes a rotation, and the transposed cofactors do: so they are the same. -/
theorem cofactors_eq (h : m.IsRotation) : m.cofactors = m := by
  have htransposed : m.cofactors.transpose = m.transpose :=
    calc m.cofactors.transpose
        = m.transpose * m * m.cofactors.transpose := by rw [h.transpose_mul_self, identity_mul]
      _ = m.transpose * (m * m.cofactors.transpose) := mul_assoc _ _ _
      _ = m.transpose := by rw [mul_transpose_cofactors h.2, mul_identity]
  simpa using congrArg Mat3.transpose htransposed

end IsRotation

end Mat3

namespace Pose

/-- The rotation of the pose is one. -/
def IsProper (T : Pose ℝ) : Prop := T.rotation.IsRotation

/-! ## The group of proper poses -/

theorem apply_zero (T : Pose ℝ) : T.apply .zero = T.translation := by
  ext <;> simp [apply, Mat3.mulVec, Vec3.dot, Vec3.zero]

theorem apply_compose (T U : Pose ℝ) (p : Vec3 ℝ) :
    (T.compose U).apply p = T.apply (U.apply p) := by
  ext <;> simp only [apply, compose, Mat3.mul_x, Mat3.mul_y, Mat3.mul_z, Mat3.mulVec,
    Mat3.transpose, Vec3.dot, Vec3.add_x, Vec3.add_y, Vec3.add_z] <;> ring

theorem compose_assoc (T U V : Pose ℝ) :
    (T.compose U).compose V = T.compose (U.compose V) := by
  have htranslation := apply_compose T U V.translation
  simp only [compose, Pose.mk.injEq]
  exact ⟨Mat3.mul_assoc _ _ _, htranslation⟩

@[simp] theorem identity_compose (T : Pose ℝ) : identity.compose T = T := by
  ext <;> simp [compose, identity, apply, Vec3.zero]

@[simp] theorem compose_identity (T : Pose ℝ) : T.compose identity = T := by
  ext <;> simp [compose, identity, apply, Mat3.mulVec, Vec3.dot, Vec3.zero]

@[simp] theorem inverse_identity : (identity : Pose ℝ).inverse = identity := by
  ext <;> simp [inverse, identity, Mat3.identity, Mat3.transpose, Mat3.mulVec, Vec3.dot, Vec3.zero]

/-- The inverse undoes a pose that moves points rigidly, though it may mirror them. -/
theorem inverse_compose_of_isOrthogonal {T : Pose ℝ} (h : T.rotation.IsOrthogonal) :
    T.inverse.compose T = identity := by
  have hrotation : T.inverse.rotation * T.rotation = .identity := h.2
  have htranslation : T.inverse.apply T.translation = .zero := by
    ext <;> simp [inverse, apply, Mat3.mulVec, Mat3.transpose, Vec3.dot, Vec3.zero] <;> ring
  simp only [compose, identity, hrotation, htranslation]

theorem isProper_identity : (identity : Pose ℝ).IsProper := Mat3.isRotation_identity

namespace IsProper

variable {T U : Pose ℝ}

theorem compose (hT : T.IsProper) (hU : U.IsProper) : (T.compose U).IsProper :=
  Mat3.IsRotation.mul hT hU

theorem inverse (hT : T.IsProper) : T.inverse.IsProper := Mat3.IsRotation.transpose hT

theorem inverse_compose (hT : T.IsProper) : T.inverse.compose T = Pose.identity :=
  inverse_compose_of_isOrthogonal hT.1

theorem inverse_compose_cancel (hT : T.IsProper) (U : Pose ℝ) :
    T.inverse.compose (T.compose U) = U := by
  rw [← compose_assoc, hT.inverse_compose, identity_compose]

theorem compose_right_injective (hT : T.IsProper) {V : Pose ℝ} (h : T.compose U = T.compose V) :
    U = V := by
  rw [← hT.inverse_compose_cancel U, h, hT.inverse_compose_cancel]

theorem compose_inverse (hT : T.IsProper) : T.compose T.inverse = Pose.identity := by
  refine hT.inverse.compose_right_injective ?_
  rw [← compose_assoc, hT.inverse_compose, identity_compose, compose_identity]

theorem compose_inverse_cancel (hT : T.IsProper) (U : Pose ℝ) :
    T.compose (T.inverse.compose U) = U := by
  rw [← compose_assoc, hT.compose_inverse, identity_compose]

/-- What undoes a pose from the right is its inverse. -/
theorem eq_inverse (hT : T.IsProper) (h : T.compose U = Pose.identity) : U = T.inverse :=
  hT.compose_right_injective (h.trans hT.compose_inverse.symm)

theorem inverse_inverse (hT : T.IsProper) : T.inverse.inverse = T :=
  (hT.inverse.eq_inverse hT.inverse_compose).symm

/-- A composition is undone from its left to its right. -/
theorem inverse_of_compose (hT : T.IsProper) (hU : U.IsProper) :
    (T.compose U).inverse = U.inverse.compose T.inverse := by
  refine ((hT.compose hU).eq_inverse ?_).symm
  calc (T.compose U).compose (U.inverse.compose T.inverse)
      = T.compose (U.compose (U.inverse.compose T.inverse)) := compose_assoc _ _ _
    _ = Pose.identity := by rw [hU.compose_inverse_cancel, hT.compose_inverse]

theorem inverse_eq_self_iff (hT : T.IsProper) :
    T.inverse = T ↔ T.compose T = Pose.identity := by
  constructor
  · intro h
    have hcompose := hT.inverse_compose
    rwa [h] at hcompose
  · intro h
    calc T.inverse = T.inverse.compose (T.compose T) := by rw [h, compose_identity]
      _ = T := hT.inverse_compose_cancel T

end IsProper

end Pose

end LiveMap
