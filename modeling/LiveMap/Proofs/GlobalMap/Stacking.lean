import LiveMap.Proofs.GlobalMap.Retention
import Mathlib.Data.List.Forall2

/-!
# Clouds on top of each other

Every array that a pose takes as points can be retained: rows of three coordinates, or three
coordinates alone, which are one point. A rebuild gives each cloud as many rows as it is long. Rows
of points fill their rows one by one; a point that stands alone is as long as three points, and
fills all three rows.

## Main definitions

* `GlobalMap.ofClouds`: the map that retains clouds one after the other.
* `GlobalMap.rowsOf`: what stands in the rows of a cloud.

## Main statements

* `Pose.transformPoints_eq_ok_iff`: what a pose takes as points.
* `GlobalMap.merge_stacks`: the map is made of the rows of its clouds, and these are the points of
  the clouds unless a point stands alone.
-/

namespace LiveMap

variable {K : Type} [Scalar K]

/-! ## What a pose takes as points -/

omit [Scalar K] in
/-- Three coordinates on one axis are a point that stands alone. -/
theorem NumArray.eq_ofVec3 {a : NumArray K} {n : Nat} {p : Vec3 K} (hshape : a.shape = [n])
    (h : a.vec3? = some p) : a = .ofVec3 p := by
  obtain ⟨shape, entries, hlength⟩ := a
  simp only at hshape
  subst hshape
  rw [vec3?] at h
  split at h
  next x y z hentries =>
    simp only at hentries
    subst hentries
    obtain rfl : 3 = n := by simpa using hlength
    obtain rfl : (⟨x, y, z⟩ : Vec3 K) = p := Option.some.inj h
    rfl
  next => cases h

omit [Scalar K] in
theorem NumArray.eq_ofPoints {a : NumArray K} {ps : List (Vec3 K)} (h : a.points? = some ps) :
    a = .ofPoints ps := by
  rw [points?] at h
  split at h
  next hshape =>
    obtain ⟨qs, -, rfl⟩ := exists_eq_ofPoints hshape
    simp only [ofPoints, Vec3.ofEntries_flatMap_toList, Option.some.injEq] at h
    rw [h]
  next => cases h

/-- A pose takes rows of three coordinates as points, and three coordinates alone as one point. -/
theorem Pose.transformPoints_eq_ok_iff (T : Pose K) (a : NumArray K) (ps : List (Vec3 K)) :
    T.transformPoints a = .ok ps ↔
      (∃ qs, a = .ofPoints qs ∧ ps = T.mapPoints qs) ∨ ∃ q, a = .ofVec3 q ∧ ps = [T.apply q] := by
  constructor
  · intro h
    rw [transformPoints] at h
    split at h
    next qs hpoints =>
      exact .inl ⟨qs, NumArray.eq_ofPoints hpoints, (Except.ok.inj h).symm⟩
    next n q hshape _ hvec =>
      exact .inr ⟨q, NumArray.eq_ofVec3 hshape hvec, (Except.ok.inj h).symm⟩
    next => cases h
    next => cases h
  · rintro (⟨qs, rfl, rfl⟩ | ⟨q, rfl, rfl⟩)
    · exact T.transformPoints_ofPoints qs
    · rfl

namespace GlobalMap

/-! ## Clouds that are retained -/

omit [Scalar K] in
/-- The map that retains clouds one after the other. -/
def ofClouds (clouds : List (NumArray K)) : GlobalMap K := clouds.foldl append {}

omit [Scalar K] in
theorem foldl_append_eq (clouds : List (NumArray K)) (m : GlobalMap K) :
    clouds.foldl append m =
      { m with
        clouds := m.clouds ++ clouds
        totalPoints := m.totalPoints + (clouds.map NumArray.length).sum } := by
  induction clouds generalizing m with
  | nil => simp
  | cons a rest ih =>
    rw [List.foldl_cons, ih]
    simp [append, Nat.add_assoc]

omit [Scalar K] in
theorem ofClouds_eq (clouds : List (NumArray K)) :
    ofClouds clouds = { clouds, totalPoints := (clouds.map NumArray.length).sum } := by
  rw [ofClouds, foldl_append_eq]
  simp

/-! ## The rows of clouds -/

/-- What stands in the rows of a cloud whose points are `ps`: three coordinates alone have three
rows. -/
def rowsOf (a : NumArray K) (ps : List (Vec3 K)) : List (Vec3 K) :=
  if a.shape = [3] then ps ++ ps ++ ps else ps

/-- The points that poses make of clouds. -/
def Turned (pairs : List (NumArray K × Pose K)) (blocks : List (List (Vec3 K))) : Prop :=
  List.Forall₂ (fun pair ps => pair.2.transformPoints pair.1 = .ok ps) pairs blocks

theorem placed_eq {a : NumArray K} {T : Pose K} {ps : List (Vec3 K)}
    (h : T.transformPoints a = .ok ps) :
    placed a T = .ok (rowsOf a ps) ∧ (rowsOf a ps).length = a.length ∧
      (rowsOf a ps).length = ps.length + if a.shape = [3] then 2 else 0 := by
  obtain ⟨qs, rfl, rfl⟩ | ⟨q, rfl, rfl⟩ := (T.transformPoints_eq_ok_iff a ps).mp h
  · have hrows : (NumArray.ofPoints qs).shape ≠ [3] := by simp [NumArray.ofPoints]
    rw [placed_ofPoints, rowsOf, if_neg hrows, if_neg hrows]
    simp [Pose.mapPoints, NumArray.ofPoints, NumArray.length]
  · exact ⟨rfl, rfl, rfl⟩

namespace Turned

variable {pairs : List (NumArray K × Pose K)} {blocks : List (List (Vec3 K))}

/-- What some pose takes as points, every pose does. -/
theorem exists_blocks (h : ∀ pair ∈ pairs, ∃ (T : Pose K) (ps : List (Vec3 K)),
    T.transformPoints pair.1 = .ok ps) : ∃ blocks, Turned pairs blocks := by
  induction pairs with
  | nil => exact ⟨[], .nil⟩
  | cons pair rest ih =>
    rw [List.forall_mem_cons] at h
    obtain ⟨T, ps, hps⟩ := h.1
    obtain ⟨blocks, hblocks⟩ := ih h.2
    have hpair : ∃ block, pair.2.transformPoints pair.1 = .ok block := by
      obtain ⟨qs, ha, -⟩ | ⟨q, ha, -⟩ := (T.transformPoints_eq_ok_iff pair.1 ps).mp hps
      · exact ⟨_, (pair.2.transformPoints_eq_ok_iff pair.1 _).mpr (.inl ⟨qs, ha, rfl⟩)⟩
      · exact ⟨_, (pair.2.transformPoints_eq_ok_iff pair.1 _).mpr (.inr ⟨q, ha, rfl⟩)⟩
    obtain ⟨block, hblock⟩ := hpair
    exact ⟨block :: blocks, .cons hblock hblocks⟩

/-- By induction along the clouds: each fills its rows behind those of the clouds before it. -/
theorem placeAll_eq (h : Turned pairs blocks) :
    placeAll pairs = .ok (List.zipWith (fun pair ps => rowsOf pair.1 ps) pairs blocks).flatten := by
  induction h with
  | nil => rfl
  | cons hpair _ ih =>
    rw [placeAll, (placed_eq hpair).1, ih]
    rfl

theorem length_rows (h : Turned pairs blocks) :
    (List.zipWith (fun pair ps => rowsOf pair.1 ps) pairs blocks).flatten.length =
      (pairs.map fun pair => pair.1.length).sum := by
  induction h with
  | nil => rfl
  | cons hpair _ ih =>
    rw [List.zipWith_cons_cons, List.flatten_cons, List.length_append, ih, (placed_eq hpair).2.1,
      List.map_cons, List.sum_cons]

/-- A point that stands alone has two rows too many. -/
theorem length_rows_eq (h : Turned pairs blocks) :
    (List.zipWith (fun pair ps => rowsOf pair.1 ps) pairs blocks).flatten.length =
      blocks.flatten.length + 2 * pairs.countP fun pair => pair.1.shape = [3] := by
  induction h with
  | nil => rfl
  | cons hpair _ ih =>
    have hrows := (placed_eq hpair).2.2
    rw [List.zipWith_cons_cons, List.flatten_cons, List.flatten_cons, List.length_append,
      List.length_append, List.countP_cons, ih, hrows]
    simp only [decide_eq_true_eq]
    split <;> omega

theorem rows_eq_iff (h : Turned pairs blocks) :
    (List.zipWith (fun pair ps => rowsOf pair.1 ps) pairs blocks).flatten = blocks.flatten ↔
      ∀ pair ∈ pairs, pair.1.shape ≠ [3] := by
  constructor
  · intro hsame
    have hlength := h.length_rows_eq
    rw [hsame] at hlength
    have hnone : pairs.countP (fun pair => pair.1.shape = [3]) = 0 := by omega
    simpa using List.countP_eq_zero.mp hnone
  · intro hrows
    congr 1
    induction h with
    | nil => rfl
    | cons _ _ ih =>
      rw [List.forall_mem_cons] at hrows
      rw [List.zipWith_cons_cons, ih hrows.2, rowsOf, if_neg hrows.1]

end Turned

/-- Of clouds that poses take as points, and at least as many poses, the whole map is made, and a
row of it is counted for each of its points. The points of each cloud stand in their order behind
those of the clouds before it, a point that stands alone three times. So the map is the points of
the clouds one below the other just when no point stands alone. -/
theorem merge_stacks {clouds : List (NumArray K)} {poses : List (Pose K)}
    (hclouds : ∀ a ∈ clouds, ∃ (T : Pose K) (ps : List (Vec3 K)), T.transformPoints a = .ok ps)
    (hposes : clouds.length ≤ poses.length) :
    ∃ blocks rows, Turned (clouds.zip poses) blocks ∧
      (ofClouds clouds).merge poses = .ok (rows, { ofClouds clouds with merges := 1 }) ∧
      rows = (List.zipWith rowsOf clouds blocks).flatten ∧
      (ofClouds clouds).totalPoints = rows.length ∧
      (rows = blocks.flatten ↔ ∀ a ∈ clouds, a.shape ≠ [3]) := by
  have hfst : (clouds.zip poses).map Prod.fst = clouds := List.map_fst_zip hposes
  obtain ⟨blocks, hblocks⟩ : ∃ blocks, Turned (clouds.zip poses) blocks :=
    Turned.exists_blocks fun pair hpair => hclouds pair.1 (List.of_mem_zip hpair).1
  have hrows : List.zipWith (fun pair ps => rowsOf pair.1 ps) (clouds.zip poses) blocks =
      List.zipWith rowsOf clouds blocks := by
    conv_rhs => rw [← hfst, List.zipWith_map_left]
  refine ⟨blocks, _, hblocks, ?_, rfl, ?_, ?_⟩
  · have hcount : ¬ poses.length < (ofClouds clouds).count := by
      rw [ofClouds_eq]
      exact Nat.not_lt.mpr hposes
    rw [merge_eq, assemble, if_neg hcount, ← hrows, ofClouds_eq, hblocks.placeAll_eq]
    rfl
  · rw [← hrows, hblocks.length_rows, ofClouds_eq]
    conv_lhs => rw [← hfst, List.map_map]
    rfl
  · rw [← hrows, hblocks.rows_eq_iff]
    conv_rhs => rw [← hfst]
    simp only [List.mem_map, forall_exists_index, and_imp, forall_apply_eq_imp_iff₂]

/-- An empty cloud, a point that stands alone, and two rows of points. -/
def mixedClouds : List (NumArray Float) :=
  [.ofPoints [], .ofVec3 ⟨1, 2, 3⟩, .ofPoints [⟨4, 5, 6⟩, ⟨7, 8, 9⟩]]

/-- With a pose to spare, five rows are made of them, and counted. -/
theorem merge_stacks_mixedClouds :
    (∀ a ∈ mixedClouds, ∃ (T : Pose Float) (ps : List (Vec3 Float)),
      T.transformPoints a = .ok ps) ∧
    mixedClouds.length ≤ (List.replicate 4 (.identity : Pose Float)).length ∧
    ∃ blocks rows, Turned (mixedClouds.zip (List.replicate 4 .identity)) blocks ∧
      (ofClouds mixedClouds).merge (List.replicate 4 .identity) =
        .ok (rows, { ofClouds mixedClouds with merges := 1 }) ∧
      rows.length = 5 ∧ rows ≠ blocks.flatten := by
  have hclouds : ∀ a ∈ mixedClouds, ∃ (T : Pose Float) (ps : List (Vec3 Float)),
      T.transformPoints a = .ok ps := by
    intro a ha
    simp only [mixedClouds, List.mem_cons, List.not_mem_nil, or_false] at ha
    rcases ha with rfl | rfl | rfl
    · exact ⟨.identity, _, Pose.transformPoints_ofPoints _ _⟩
    · exact ⟨.identity, _, rfl⟩
    · exact ⟨.identity, _, Pose.transformPoints_ofPoints _ _⟩
  have hposes : mixedClouds.length ≤ (List.replicate 4 (.identity : Pose Float)).length := by decide
  obtain ⟨blocks, rows, hblocks, hmerge, -, htotal, hiff⟩ := merge_stacks hclouds hposes
  refine ⟨hclouds, hposes, blocks, rows, hblocks, hmerge, htotal.symm, fun hsame => ?_⟩
  exact hiff.mp hsame (.ofVec3 ⟨1, 2, 3⟩) (by simp [mixedClouds]) rfl

/-- A point that stands alone is one point, and three rows of the map. -/
theorem merge_lonePoint :
    ∃ rows merged block, (ofClouds [.ofVec3 (⟨1, 2, 3⟩ : Vec3 Float)]).merge [.identity] =
        .ok (rows, merged) ∧
      (Pose.identity : Pose Float).transformPoints (.ofVec3 ⟨1, 2, 3⟩) = .ok block ∧
      rows ≠ [block].flatten ∧
      (ofClouds [.ofVec3 (⟨1, 2, 3⟩ : Vec3 Float)]).totalPoints ≠ [block].flatten.length := by
  refine ⟨_, _, _, rfl, rfl, fun hsame => ?_, by decide⟩
  exact absurd (congrArg List.length hsame) (by decide)

end GlobalMap

end LiveMap
