import LiveMap.Proofs.FrameTree.Walks
import LiveMap.Viewer.Settings

/-!
# The frames of a viewer in a tree

The relations of a viewer hang its frames in a row under the world: lidar, imu, odom, world. Every
part of the row is an ascent, so the relation of any two frames is the product along it.

## Main definitions

* `Settings.FramesDistinct`: the four frames have four names.
* `FrameTree.Hangs`: the tree holds the row, and nothing above the world.
* `FrameTree.Chained`: all of the row was told for one time.

## Main statements

* `FrameTree.Hangs.lookup_world_odom`, `FrameTree.Hangs.lookup_world_imu`,
  `FrameTree.Hangs.lookup_odom_imu`: the row from above.
* `FrameTree.Hangs.lookup_lidar_imu`, `FrameTree.Hangs.lookup_world_lidar`: the extrinsic.
-/

namespace LiveMap

/-- The four frames have four names. -/
def Settings.FramesDistinct {K : Type} (s : Settings K) : Prop :=
  [s.worldFrame, s.odomFrame, s.imuFrame, s.lidarFrame].Nodup

theorem Settings.FramesDistinct.ne {K : Type} {s : Settings K} (h : s.FramesDistinct) :
    s.odomFrame ≠ s.worldFrame ∧ s.imuFrame ≠ s.worldFrame ∧ s.imuFrame ≠ s.odomFrame ∧
      s.lidarFrame ≠ s.worldFrame ∧ s.lidarFrame ≠ s.odomFrame ∧ s.lidarFrame ≠ s.imuFrame := by
  simp only [FramesDistinct, List.nodup_cons, List.mem_cons, not_or] at h
  tauto

namespace FrameTree

/-- The tree holds `T_world_odom`, `T_odom_imu` and the relation of the lidar to the IMU, and the
world is a root. -/
structure Hangs (t : FrameTree ℝ) (s : Settings ℝ) (W O E : Pose ℝ) : Prop where
  world : t.link? s.worldFrame = none
  odom : ∃ stamp, t.link? s.odomFrame = some ⟨s.worldFrame, stamp, W⟩
  imu : ∃ stamp, t.link? s.imuFrame = some ⟨s.odomFrame, stamp, O⟩
  lidar : ∃ stamp, t.link? s.lidarFrame = some ⟨s.imuFrame, stamp, E⟩

/-- The row, all of one time. -/
structure Chained (t : FrameTree ℝ) (s : Settings ℝ) (stamp : ℝ) (W O E : Pose ℝ) : Prop where
  world : t.link? s.worldFrame = none
  odom : t.link? s.odomFrame = some ⟨s.worldFrame, stamp, W⟩
  imu : t.link? s.imuFrame = some ⟨s.odomFrame, stamp, O⟩
  lidar : t.link? s.lidarFrame = some ⟨s.imuFrame, stamp, E⟩

theorem Chained.hangs {t : FrameTree ℝ} {s : Settings ℝ} {stamp : ℝ} {W O E : Pose ℝ}
    (h : t.Chained s stamp W O E) : t.Hangs s W O E :=
  ⟨h.world, ⟨stamp, h.odom⟩, ⟨stamp, h.imu⟩, ⟨stamp, h.lidar⟩⟩

namespace Hangs

variable {t : FrameTree ℝ} {s : Settings ℝ} {W O E : Pose ℝ}

/-! ## Ways up -/

theorem ascent_odom (h : t.Hangs s W O E) : t.Ascent s.odomFrame W s.worldFrame := by
  obtain ⟨_, hlink⟩ := h.odom
  exact .of_link hlink

theorem ascent_imu (h : t.Hangs s W O E) : t.Ascent s.imuFrame O s.odomFrame := by
  obtain ⟨_, hlink⟩ := h.imu
  exact .of_link hlink

theorem ascent_lidar (h : t.Hangs s W O E) : t.Ascent s.lidarFrame E s.imuFrame := by
  obtain ⟨_, hlink⟩ := h.lidar
  exact .of_link hlink

theorem resolves_world (h : t.Hangs s W O E) : t.Resolves s.worldFrame := by
  obtain ⟨_, hodom⟩ := h.odom
  exact resolves_root (knows_parent hodom) h.world

/-! ## Relations -/

theorem lookup_world_odom (h : t.Hangs s W O E) : t.lookup s.worldFrame s.odomFrame = .ok W :=
  h.ascent_odom.lookup h.resolves_world

theorem lookup_world_imu (h : t.Hangs s W O E) :
    t.lookup s.worldFrame s.imuFrame = .ok (W.compose O) :=
  (h.ascent_imu.trans h.ascent_odom).lookup h.resolves_world

theorem lookup_odom_imu (h : t.Hangs s W O E) : t.lookup s.odomFrame s.imuFrame = .ok O :=
  h.ascent_imu.lookup (h.ascent_odom.resolves h.resolves_world)

/-- The lidar is the child, so what the tree holds is undone on the way. -/
theorem lookup_lidar_imu (h : t.Hangs s W O E) :
    t.lookup s.lidarFrame s.imuFrame = .ok E.inverse :=
  h.ascent_lidar.lookup_inverse ((h.ascent_imu.trans h.ascent_odom).resolves h.resolves_world)

theorem lookup_world_lidar (h : t.Hangs s W O E) :
    t.lookup s.worldFrame s.lidarFrame = .ok ((W.compose O).compose E) :=
  (h.ascent_lidar.trans (h.ascent_imu.trans h.ascent_odom)).lookup h.resolves_world

end Hangs

end FrameTree

end LiveMap
