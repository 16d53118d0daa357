import LiveMap.Proofs.Geometry.Rotation
import Mathlib.LinearAlgebra.Matrix.Notation

/-!
# Poses as matrices

The four by four matrix of a pose multiplies the way poses are composed, and it takes a point with
a one behind its coordinates to where the pose takes the point. The points of an array are taken
one by one: as rows they are multiplied by the transposed rotation, as columns by the rotation.
Proper poses form a group, and leave the distances between points as they are.

## Main definitions

* `Pose.homogeneous`, `Vec3.homogeneous`: a pose and a point as a matrix and a vector.
* `Pose.Takes`: what a pose does to the points of an array.
* `distances`: the table of distances between points.

## Main statements

* `Pose.homogeneous_compose`, `Pose.homogeneous_mulVec`: composition and action as products.
* `Pose.takes_ofPoints`, `Pose.Takes.distances_eq`: arrays of points, point by point.
* `Pose.group_laws`: poses, matrices and arrays of points tell of one group.
-/

namespace LiveMap

open Matrix

/-! ## Entries by place -/

namespace Vec3

/-- The coordinates, by place. -/
def coords (v : Vec3 ℝ) : Fin 3 → ℝ := ![v.x, v.y, v.z]

/-- The coordinates with a one behind them. -/
def homogeneous (v : Vec3 ℝ) : Fin 4 → ℝ := ![v.x, v.y, v.z, 1]

theorem coords_add (u v : Vec3 ℝ) : (u + v).coords = u.coords + v.coords := by
  simp [coords]

end Vec3

namespace Mat3

/-- The entries, by row and column. -/
def coords (m : Mat3 ℝ) : Matrix (Fin 3) (Fin 3) ℝ := .of ![m.x.coords, m.y.coords, m.z.coords]

theorem coords_mulVec (m : Mat3 ℝ) (v : Vec3 ℝ) : (m.mulVec v).coords = m.coords *ᵥ v.coords := by
  ext i
  fin_cases i <;> simp [coords, Vec3.coords, mulVec, Vec3.dot, Matrix.mulVec, dotProduct,
    Fin.sum_univ_three]

end Mat3

/-! ## The four by four matrix -/

/-- The literal that lists rows of numbers. -/
def ArrayLiteral.ofRows {K : Type} (rows : List (List K)) : ArrayLiteral K :=
  .list (rows.map fun row => .list (row.map .number))

namespace Pose

theorem ofMatrix_toMatrix {K : Type} [Scalar K] (T : Pose K) :
    ofMatrix (.ofRows T.toMatrix) = .ok T :=
  rfl

/-- The entries of the four by four matrix, by row and column. -/
noncomputable def homogeneous (T : Pose ℝ) : Matrix (Fin 4) (Fin 4) ℝ :=
  .of fun i j => (T.toMatrix.getD i []).getD j 0

theorem toMatrix_eq_ofFn (T : Pose ℝ) :
    T.toMatrix = List.ofFn fun i => List.ofFn (T.homogeneous i) :=
  rfl

theorem homogeneous_eq (T : Pose ℝ) : T.homogeneous =
    !![T.rotation.x.x, T.rotation.x.y, T.rotation.x.z, T.translation.x;
       T.rotation.y.x, T.rotation.y.y, T.rotation.y.z, T.translation.y;
       T.rotation.z.x, T.rotation.z.y, T.rotation.z.z, T.translation.z;
       0, 0, 0, 1] := by
  ext i j
  fin_cases i <;> fin_cases j <;> rfl

/-- The matrix of a composition is the product of the matrices. -/
theorem homogeneous_compose (T U : Pose ℝ) :
    (T.compose U).homogeneous = T.homogeneous * U.homogeneous := by
  rw [homogeneous_eq, homogeneous_eq, homogeneous_eq]
  ext i j
  fin_cases i <;> fin_cases j <;>
    simp [Matrix.mul_apply, Fin.sum_univ_four, compose, apply, Mat3.mulVec, Mat3.transpose,
      Vec3.dot, mul_comm]

/-- Above the one behind its coordinates, the matrix takes a point as the pose does. -/
theorem homogeneous_mulVec (T : Pose ℝ) (p : Vec3 ℝ) :
    T.homogeneous *ᵥ p.homogeneous = (T.apply p).homogeneous := by
  rw [homogeneous_eq]
  ext i
  fin_cases i <;> simp [Matrix.mulVec, dotProduct, Fin.sum_univ_four, Vec3.homogeneous, apply,
    Mat3.mulVec, Vec3.dot]

/-! ## Arrays of points -/

/-- A point as a row times the transposed rotation is the rotation times the point as a column. -/
theorem coords_apply (T : Pose ℝ) (p : Vec3 ℝ) :
    (T.apply p).coords = p.coords ᵥ* T.rotation.coordsᵀ + T.translation.coords := by
  rw [apply, Vec3.coords_add, Mat3.coords_mulVec, Matrix.vecMul_transpose]

/-- The pose takes the points `before` of an array to the points `after`, all at once as well as one
by one, as rows, and as columns with a one behind their coordinates. -/
structure Takes (T : Pose ℝ) (points : NumArray ℝ) (before after : List (Vec3 ℝ)) : Prop where
  array : points = .ofPoints before
  atOnce : T.transformPoints points = .ok after
  oneByOne : before.map (fun p => T.transformPoint (.ofVec3 p)) = after.map .ok
  rows : after.map Vec3.coords =
    before.map fun p => p.coords ᵥ* T.rotation.coordsᵀ + T.translation.coords
  columns : after.map Vec3.homogeneous = before.map fun p => T.homogeneous *ᵥ p.homogeneous

theorem takes_ofPoints (T : Pose ℝ) (ps : List (Vec3 ℝ)) :
    T.Takes (.ofPoints ps) ps (T.mapPoints ps) where
  array := rfl
  atOnce := T.transformPoints_ofPoints ps
  oneByOne := by
    rw [mapPoints, List.map_map]
    rfl
  rows := by
    rw [mapPoints, List.map_map]
    exact List.map_congr_left fun p _ => T.coords_apply p
  columns := by
    rw [mapPoints, List.map_map]
    exact List.map_congr_left fun p _ => (T.homogeneous_mulVec p).symm

theorem mapPoints_compose (T U : Pose ℝ) (ps : List (Vec3 ℝ)) :
    (T.compose U).mapPoints ps = T.mapPoints (U.mapPoints ps) := by
  rw [mapPoints, mapPoints, mapPoints, List.map_map]
  exact List.map_congr_left fun p _ => apply_compose T U p

end Pose

/-! ## Distances -/

noncomputable def Vec3.distance (u v : Vec3 ℝ) : ℝ := (u + -v).norm

/-- The table of distances between points. -/
noncomputable def distances (ps : List (Vec3 ℝ)) : List (List ℝ) :=
  ps.map fun p => ps.map p.distance

namespace Pose

/-- The translation cancels, and an orthogonal matrix leaves lengths as they are. -/
theorem distance_apply {T : Pose ℝ} (h : T.rotation.IsOrthogonal) (p q : Vec3 ℝ) :
    (T.apply p).distance (T.apply q) = p.distance q := by
  have hdifference : T.apply p + -T.apply q = T.rotation.mulVec (p + -q) := by
    ext <;> simp only [apply, Mat3.mulVec, Vec3.dot, Vec3.add_x, Vec3.add_y, Vec3.add_z,
      Vec3.neg_x, Vec3.neg_y, Vec3.neg_z] <;> ring
  rw [Vec3.distance, Vec3.distance, hdifference, Vec3.norm, Vec3.norm, h.mulVec_dot_mulVec]

theorem Takes.distances_eq {T : Pose ℝ} {points : NumArray ℝ} {before after : List (Vec3 ℝ)}
    (h : T.Takes points before after) (hT : T.rotation.IsOrthogonal) :
    distances after = distances before := by
  have hafter : after = T.mapPoints before := by
    have hpoints := h.atOnce
    rw [h.array, transformPoints_ofPoints] at hpoints
    exact (Except.ok.inj hpoints).symm
  rw [hafter, distances, mapPoints, List.map_map]
  refine List.map_congr_left fun p _ => ?_
  rw [Function.comp_apply, List.map_map]
  exact List.map_congr_left fun q _ => distance_apply hT p q

/-! ## The group -/

/-- The matrix of a composition is the product of the matrices, and the pose of the matrix of a pose
is that pose. Composition is associative, and the identity is its unit. A composition takes an array
of points, of any number, to where its parts take it one after the other, all at once and point by
point. Compositions and inverses of proper poses are proper, an inverse undoes its pose from either
side and a composition from its left to its right, and the distances between points stay as they
are. -/
theorem group_laws (T U V : Pose ℝ) :
    (T.compose U).homogeneous = T.homogeneous * U.homogeneous ∧
    T.toMatrix = (List.ofFn fun i => List.ofFn (T.homogeneous i)) ∧
    ofMatrix (.ofRows T.toMatrix) = .ok T ∧
    (T.compose U).compose V = T.compose (U.compose V) ∧
    Pose.identity.compose T = T ∧ T.compose .identity = T ∧
    (∀ (n : Nat) (points : NumArray ℝ), points.shape = [n, 3] →
      ∃ ps qs rs, ps.length = n ∧ U.Takes points ps qs ∧ T.Takes (.ofPoints qs) qs rs ∧
        (T.compose U).Takes points ps rs) ∧
    (T.IsProper → U.IsProper →
      (T.compose U).IsProper ∧ T.inverse.IsProper ∧
      T.compose T.inverse = .identity ∧ T.inverse.compose T = .identity ∧
      (T.compose U).inverse = U.inverse.compose T.inverse ∧
      ∀ points ps qs, T.Takes points ps qs → distances qs = distances ps) := by
  refine ⟨homogeneous_compose T U, toMatrix_eq_ofFn T, ofMatrix_toMatrix T, compose_assoc T U V,
    identity_compose T, compose_identity T, fun n points hshape => ?_, fun hT hU => ?_⟩
  · obtain ⟨ps, hlength, rfl⟩ := NumArray.exists_eq_ofPoints hshape
    have hcompose := (T.compose U).takes_ofPoints ps
    rw [mapPoints_compose] at hcompose
    exact ⟨ps, _, _, hlength, U.takes_ofPoints ps, T.takes_ofPoints _, hcompose⟩
  · exact ⟨hT.compose hU, hT.inverse, hT.compose_inverse, hT.inverse_compose,
      hT.inverse_of_compose hU, fun points ps qs htakes => htakes.distances_eq hT.1⟩

/-- A quarter turn and a shift. -/
noncomputable def quarterTurn : Pose ℝ := ⟨⟨⟨0, -1, 0⟩, ⟨1, 0, 0⟩, ⟨0, 0, 1⟩⟩, ⟨1, 0, -1⟩⟩

theorem group_laws_quarterTurn :
    quarterTurn.IsProper ∧ (NumArray.ofPoints [⟨1, 0, 0⟩, .zero] : NumArray ℝ).shape = [2, 3] ∧
    (quarterTurn.compose quarterTurn).inverse =
      quarterTurn.inverse.compose quarterTurn.inverse ∧
    ∃ ps qs, quarterTurn.Takes (.ofPoints [⟨1, 0, 0⟩, .zero]) ps qs ∧ ps.length = 2 ∧
      distances qs = distances ps := by
  have hproper : quarterTurn.IsProper := by
    refine ⟨⟨?_, ?_⟩, ?_⟩
    · ext <;> simp [quarterTurn, Mat3.mulVec, Mat3.transpose, Vec3.dot, Mat3.identity]
    · ext <;> simp [quarterTurn, Mat3.mulVec, Mat3.transpose, Vec3.dot, Mat3.identity]
    · simp [quarterTurn, Mat3.det, Mat3.cofactors, Vec3.dot]
  have hshape : (NumArray.ofPoints [⟨1, 0, 0⟩, .zero] : NumArray ℝ).shape = [2, 3] := rfl
  obtain ⟨-, -, -, -, -, -, hpoints, hgroup⟩ := group_laws quarterTurn quarterTurn .identity
  obtain ⟨-, -, -, -, hinverse, hdistances⟩ := hgroup hproper hproper
  obtain ⟨ps, qs, _, hlength, htakes, -, -⟩ := hpoints 2 _ hshape
  exact ⟨hproper, hshape, hinverse, ps, qs, htakes, hlength, hdistances _ ps qs htakes⟩

end Pose

end LiveMap
