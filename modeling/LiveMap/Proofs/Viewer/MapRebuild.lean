import LiveMap.Proofs.Bus.Publication
import LiveMap.Proofs.GlobalMap.Retention
import LiveMap.Viewer.MapUpdate

/-!
# One rebuild of the map

As long as lists of submaps only grow, the retained clouds are those of the latest list that was
rebuilt, and a rebuild does not fail: the map is that of its list, placed by the poses that the list
had when it was delivered.

## Main definitions

* `mapOf`: the map of a list of submaps.
* `Rebuild.Of`: the rebuild that was deferred for a list, whatever became of its poses since.

## Main statements

* `GlobalMap.clouds_extend_of_prefix`, `GlobalMap.merge_of_clouds`: clouds and poses line up.
* `Station.rebuildMap_of`: what a rebuild does.
-/

namespace LiveMap

variable {K ρ : Type}

/-- The map of submaps where their origins are. -/
def mapOf [Scalar K] (frame : String) (wallClock : K) (submaps : List (Submap K)) : PointCloud K :=
  .pack frame wallClock (submaps.flatMap fun s => s.origin.mapPoints s.points)

theorem width_mapOf [Scalar K] (frame : String) (wallClock : K) (submaps : List (Submap K)) :
    (mapOf frame wallClock submaps).width = (submaps.map fun s => s.points.length).sum := by
  simp [mapOf, Pose.mapPoints, List.length_flatMap]

/-- The rebuild of a list of submaps: it has the poses of the list, and its points. -/
structure Rebuild.Of (r : Rebuild K) (submaps : List (Submap K)) : Prop where
  poses : r.poses = submaps.map Submap.origin
  points : r.submaps.map Submap.points = submaps.map Submap.points

theorem Rebuild.of_ofSubmaps (submaps : List (Submap K)) : (ofSubmaps submaps).Of submaps :=
  ⟨rfl, rfl⟩

theorem Rebuild.Of.clouds {r : Rebuild K} {submaps : List (Submap K)} (h : r.Of submaps) :
    r.submaps.map Submap.cloud = submaps.map Submap.cloud := by
  have hclouds := congrArg (List.map NumArray.ofPoints) h.points
  rw [List.map_map, List.map_map] at hclouds
  exact hclouds

namespace GlobalMap

theorem clouds_extend_of_prefix {m : GlobalMap K} {submaps : List (Submap K)}
    (h : m.clouds <+: submaps.map Submap.cloud) :
    (m.extend submaps).clouds = submaps.map Submap.cloud := by
  obtain ⟨rest, hrest⟩ := h
  have hunseen : (m.unseen submaps).map Submap.cloud = rest := by
    rw [unseen, List.map_drop, ← hrest, count, List.drop_left]
  rw [← hrest, ← hunseen]
  exact clouds_extend m submaps

variable [Scalar K]

theorem placeAll_of_submaps (submaps : List (Submap K)) :
    placeAll ((submaps.map Submap.cloud).zip (submaps.map Submap.origin)) =
      .ok (submaps.flatMap fun s => s.origin.mapPoints s.points) := by
  induction submaps with
  | nil => rfl
  | cons s rest ih =>
    simp only [List.map_cons, List.zip_cons_cons, placeAll, ih, Submap.cloud, placed_ofPoints]
    rfl

theorem merge_of_clouds {m : GlobalMap K} {submaps : List (Submap K)}
    (h : m.clouds = submaps.map Submap.cloud) :
    m.merge (submaps.map Submap.origin) =
      .ok (submaps.flatMap fun s => s.origin.mapPoints s.points,
        { m with merges := m.merges + 1 }) := by
  have hcount : ¬ (submaps.map Submap.origin).length < m.count := by
    simp [count, h]
  rw [merge, assemble, if_neg hcount, h, placeAll_of_submaps]
  rfl

end GlobalMap

namespace Station

variable [Scalar K]

/-- What maps depend on, besides who hears them. -/
structure SameMaps (s s' : Station K ρ) : Prop where
  id : s'.id = s.id
  settings : s'.viewer.settings = s.viewer.settings
  clouds : s'.viewer.globalMap.clouds = s.viewer.globalMap.clouds
  sent : s'.bus.sent = s.bus.sent

theorem sameMaps_correctAnchor (f : Stats → Stats) (latest : Submap K) (s : Station K ρ) :
    s.SameMaps ((s.count f).correctAnchor latest) := by
  rw [correctAnchor, updateAnchor, noteAll_eq]
  exact ⟨rfl, rfl, rfl, rfl⟩

/-- A rebuild retains the clouds of its list, and publishes the map if it is heard. -/
theorem rebuildMap_of {s : Station K ρ} {r : Rebuild K} {submaps : List (Submap K)}
    (hr : r.Of submaps)
    (hclouds : s.viewer.globalMap.clouds <+: submaps.map Submap.cloud) :
    (s.rebuildMap r).2 = true ∧ (s.rebuildMap r).1.id = s.id ∧
    (s.rebuildMap r).1.viewer.settings = s.viewer.settings ∧
    (s.rebuildMap r).1.viewer.globalMap.clouds = submaps.map Submap.cloud ∧
    (s.rebuildMap r).1.bus.sent = s.bus.sent ++
      if s.isHeard .map then
        [((s.id, .map), .cloud (mapOf s.viewer.settings.worldFrame s.wallClock submaps))]
      else [] := by
  have hretained : (s.viewer.globalMap.extend r.submaps).clouds = submaps.map Submap.cloud := by
    rw [GlobalMap.clouds_extend_of_prefix (hr.clouds ▸ hclouds), hr.clouds]
  have hmerge := GlobalMap.merge_of_clouds hretained
  rw [← hr.poses] at hmerge
  have hheard : (s.retain r.submaps).isHeard .map = s.isHeard .map := by
    rw [retain, noteAll_eq]
    rfl
  have hmap : (s.retain r.submaps).viewer.globalMap = s.viewer.globalMap.extend r.submaps := rfl
  unfold rebuildMap
  dsimp only
  rw [hheard, hmap]
  cases s.isHeard .map with
  | false =>
    rw [retain, noteAll_eq]
    exact ⟨rfl, rfl, rfl, hretained, by simp⟩
  | true =>
    rw [if_pos rfl, hmerge, retain, noteAll_eq]
    exact ⟨rfl, rfl, rfl, hretained, Bus.sent_publish _ _ _⟩

end Station

end LiveMap
