import LiveMap.GlobalMap
import Mathlib.Algebra.GroupWithZero.Nat

/-!
# Retained clouds

What a delivery adds to the clouds of a map, and what a rebuild takes of them.

## Main definitions

* `Submap.cloud`: the cloud that a submap is retained by.
* `GlobalMap.OfPoints`: every retained cloud is a list of points.

## Main statements

* `GlobalMap.count_extend`, `GlobalMap.totalPoints_extend`, `GlobalMap.merges_extend`: a delivery.
* `GlobalMap.count_deliver`: its answer.
* `GlobalMap.OfPoints.exists_assemble_iff`: a rebuild fails for want of poses only.
-/

namespace LiveMap

variable {K : Type}

/-- The cloud that a submap is retained by. -/
def Submap.cloud (s : Submap K) : NumArray K := .ofPoints s.points

namespace GlobalMap

/-! ## Deliveries -/

theorem count_extend (m : GlobalMap K) (submaps : List (Submap K)) :
    (m.extend submaps).count = max m.count submaps.length := by
  rw [count, clouds_extend, List.length_append, List.length_map, unseen, List.length_drop, count]
  omega

/-- A delivery answers by how much the map has grown. -/
theorem count_deliver (m : GlobalMap K) (submaps : List (Submap K)) :
    (m.deliver submaps).1.count = m.count + (m.deliver submaps).2 := by
  have hcount := m.count_extend submaps
  simp only [deliver, unseen, List.length_drop]
  omega

theorem merges_extend (m : GlobalMap K) (submaps : List (Submap K)) :
    (m.extend submaps).merges = m.merges := by
  rw [extend]
  induction m.unseen submaps generalizing m with
  | nil => rfl
  | cons s rest ih => exact ih (m.append (.ofPoints s.points))

/-- The points are counted as their clouds come. -/
theorem totalPoints_extend (m : GlobalMap K) (submaps : List (Submap K)) :
    (m.extend submaps).totalPoints =
      m.totalPoints + ((m.unseen submaps).map fun s => s.cloud.length).sum := by
  rw [extend]
  induction m.unseen submaps generalizing m with
  | nil => rfl
  | cons s rest ih =>
    rw [List.foldl_cons, ih, List.map_cons, List.sum_cons, ← Nat.add_assoc]
    rfl

/-- The retained clouds and their points after an extension depend on those before it only. -/
theorem extend_congr {m m' : GlobalMap K} (hclouds : m'.clouds = m.clouds)
    (htotal : m'.totalPoints = m.totalPoints) (submaps : List (Submap K)) :
    (m'.extend submaps).clouds = (m.extend submaps).clouds ∧
      (m'.extend submaps).totalPoints = (m.extend submaps).totalPoints := by
  have hunseen : m'.unseen submaps = m.unseen submaps := by
    rw [unseen, unseen, count, count, hclouds]
  rw [clouds_extend, clouds_extend, totalPoints_extend, totalPoints_extend, hunseen, hclouds,
    htotal]
  exact ⟨rfl, rfl⟩

/-- Every retained cloud is a list of points. -/
def OfPoints (m : GlobalMap K) : Prop := ∀ cloud ∈ m.clouds, ∃ ps, cloud = .ofPoints ps

theorem OfPoints.extend {m : GlobalMap K} (h : m.OfPoints) (submaps : List (Submap K)) :
    (m.extend submaps).OfPoints := by
  intro cloud hcloud
  rw [clouds_extend, List.mem_append, List.mem_map] at hcloud
  rcases hcloud with hcloud | ⟨s, -, rfl⟩
  · exact h cloud hcloud
  · exact ⟨s.points, rfl⟩

/-! ## Rebuilds -/

variable [Scalar K]

theorem assemble_congr {m m' : GlobalMap K} (hclouds : m'.clouds = m.clouds)
    (poses : List (Pose K)) : m'.assemble poses = m.assemble poses := by
  rw [assemble, assemble, count, count, hclouds]

theorem merge_eq (m : GlobalMap K) (poses : List (Pose K)) :
    m.merge poses =
      (m.assemble poses).map fun ps => (ps, { m with merges := m.merges + 1 }) := by
  unfold merge
  cases m.assemble poses <;> rfl

theorem exists_placeAll {pairs : List (NumArray K × Pose K)}
    (h : ∀ p ∈ pairs, ∃ ps, p.1 = .ofPoints ps) : ∃ placed, placeAll pairs = .ok placed := by
  induction pairs with
  | nil => exact ⟨[], rfl⟩
  | cons p rest ih =>
    rw [List.forall_mem_cons] at h
    obtain ⟨cloud, T⟩ := p
    obtain ⟨ps, rfl⟩ := h.1
    obtain ⟨placed, hplaced⟩ := ih h.2
    refine ⟨T.mapPoints ps ++ placed, ?_⟩
    rw [placeAll, placed_ofPoints, hplaced]
    rfl

/-- Only poses can be missing. -/
theorem OfPoints.exists_assemble_iff {m : GlobalMap K} (h : m.OfPoints) (poses : List (Pose K)) :
    (∃ ps, m.assemble poses = .ok ps) ↔ m.count ≤ poses.length := by
  unfold assemble
  split
  next hshort =>
    constructor
    · rintro ⟨ps, hps⟩
      cases hps
    · intro hle
      omega
  next hlong =>
    have hplaced : ∃ placed, placeAll (m.clouds.zip poses) = .ok placed :=
      exists_placeAll fun p hp => h p.1 (List.of_mem_zip hp).1
    exact ⟨fun _ => Nat.le_of_not_lt hlong, fun _ => hplaced⟩

end GlobalMap

end LiveMap
