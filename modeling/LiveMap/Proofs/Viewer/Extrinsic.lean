import LiveMap.Proofs.Viewer.Interleaving

/-!
# The extrinsic in a frame tree

A frame carries its extrinsic as `T_lidar_imu`, and the relation of the lidar to the IMU is told by
that very pose, although the lidar is its child. So a frame tree finds the lidar where the undone
extrinsic would put it.

## Main statements

* `Station.newFrame_chained`: the frames of a viewer in a tree after a frame.
* `Station.lookup_extrinsic`: the lidar in the tree, and when the tree finds it where it is.
-/

namespace LiveMap.Station

variable {ρ : Type} {s : Station ℝ ρ} {f : EstimationFrame ℝ} {tree handle : Nat}

theorem trajectory_publishScan (f : EstimationFrame ℝ) (s : Station ℝ ρ) :
    (FrameRun.publishScan f s).viewer.trajectory = s.viewer.trajectory := by
  unfold FrameRun.publishScan
  split <;> rfl

/-- A frame without corrections is told by the anchor that the trajectory had before it. -/
theorem newFrame_chained (hready : s.Ready tree handle) (hpose : f.pose.IsProper)
    (hextrinsic : f.extrinsic.IsProper) :
    (s.newFrame f).2 = none ∧ ((s.newFrame f).1.bus.treeAt tree).Chained s.viewer.settings f.stamp
      s.viewer.trajectory.anchor f.pose f.extrinsic := by
  have hproper : ∀ m ∈ [Move.step f .scan] ++
      .step f .sample :: FrameStep.behindSample.map (.step f), m.IsProper := by
    simp [FrameStep.behindSample, Move.IsProper, hpose, hextrinsic]
  have hrun : (⟨s, .identity, .identity⟩ : FrameRun ℝ ρ).station.Ready tree handle := hready
  obtain ⟨sampling, finish, hfirst, hplay, hscan, hbehind⟩ :=
    FrameRun.exists_play_call hproper rfl rfl hrun
  have hanchor : sampling.station.viewer.trajectory = s.viewer.trajectory := by
    obtain rfl : _ = sampling := congrArg Prod.fst hfirst
    exact trajectory_publishScan f _
  have hframe : s.newFrame f = (finish.station, none) := by
    have hsteps : play (FrameStep.all.map (.step f)) ⟨s, .identity, .identity⟩ = (finish, none) :=
      hplay
    rw [newFrame_eq_play, hsteps]
  rw [hframe]
  exact ⟨rfl, hanchor ▸ hscan.chained hbehind⟩

/-- The tree relates the lidar to the IMU by the undone extrinsic, and finds the lidar in the world
accordingly. That is where the lidar is just when the extrinsic undoes itself. -/
theorem lookup_extrinsic (hready : s.Ready tree handle) (hpose : f.pose.IsProper)
    (hextrinsic : f.extrinsic.IsProper) :
    (s.newFrame f).2 = none ∧
    ((s.newFrame f).1.bus.treeAt tree).lookup s.viewer.settings.lidarFrame
      s.viewer.settings.imuFrame = .ok f.extrinsic.inverse ∧
    ((s.newFrame f).1.bus.treeAt tree).lookup s.viewer.settings.worldFrame
      s.viewer.settings.lidarFrame =
        .ok ((s.viewer.trajectory.anchor.compose f.pose).compose f.extrinsic) ∧
    (((s.newFrame f).1.bus.treeAt tree).lookup s.viewer.settings.lidarFrame
      s.viewer.settings.imuFrame = .ok f.extrinsic ↔
        f.extrinsic.compose f.extrinsic = .identity) ∧
    (((s.newFrame f).1.bus.treeAt tree).lookup s.viewer.settings.worldFrame
      s.viewer.settings.lidarFrame =
        .ok ((s.viewer.trajectory.anchor.compose f.pose).compose f.extrinsic.inverse) ↔
        f.extrinsic.compose f.extrinsic = .identity) := by
  obtain ⟨hframe, hchained⟩ := newFrame_chained hready hpose hextrinsic
  have hproper : (s.viewer.trajectory.anchor.compose f.pose).IsProper :=
    hready.trajectory.anchor.compose hpose
  have hlidar := hchained.hangs.lookup_lidar_imu
  have hworld := hchained.hangs.lookup_world_lidar
  refine ⟨hframe, hlidar, hworld, ?_, ?_⟩
  · rw [hlidar, Except.ok.injEq]
    exact hextrinsic.inverse_eq_self_iff
  · rw [hworld, Except.ok.injEq, ← hextrinsic.inverse_eq_self_iff]
    constructor
    · exact fun h => (hproper.compose_right_injective h).symm
    · intro h
      rw [h]

/-- A frame of a lidar that sees the IMU a meter above itself. -/
noncomputable def frameBelow : EstimationFrame ℝ where
  stamp := 1
  frame := .lidar
  pose := .identity
  extrinsic := ⟨.identity, ⟨0, 0, 1⟩⟩
  points := []

theorem isProper_frameBelow : frameBelow.pose.IsProper ∧ frameBelow.extrinsic.IsProper :=
  ⟨Pose.isProper_identity, Pose.isProper_identity⟩

theorem inverse_frameBelow : frameBelow.extrinsic.inverse = ⟨.identity, ⟨0, 0, -1⟩⟩ := by
  ext <;> simp [Pose.inverse, frameBelow, Mat3.identity, Mat3.transpose, Mat3.mulVec, Vec3.dot]

/-- The tree puts the IMU a meter below the lidar, and the lidar above the IMU. -/
theorem lookup_frameBelow :
    (fresh .short : Station ℝ Empty).Ready 0 0 ∧ frameBelow.pose.IsProper ∧
    frameBelow.extrinsic.IsProper ∧
    ((fresh .short : Station ℝ Empty).newFrame frameBelow).2 = none ∧
    (((fresh .short : Station ℝ Empty).newFrame frameBelow).1.bus.treeAt 0).lookup
      "lidar" "imu" = .ok ⟨.identity, ⟨0, 0, -1⟩⟩ ∧
    (((fresh .short : Station ℝ Empty).newFrame frameBelow).1.bus.treeAt 0).lookup
      "world" "lidar" = .ok ⟨.identity, ⟨0, 0, 1⟩⟩ := by
  obtain ⟨hpose, hextrinsic⟩ := isProper_frameBelow
  obtain ⟨hframe, hlidar, hworld, -, -⟩ := lookup_extrinsic ready_fresh_short hpose hextrinsic
  have hplace : ((fresh .short : Station ℝ Empty).viewer.trajectory.anchor.compose
      frameBelow.pose).compose frameBelow.extrinsic = ⟨.identity, ⟨0, 0, 1⟩⟩ := by
    simp [fresh, Viewer.start, Trajectory.start, frameBelow]
  exact ⟨ready_fresh_short, hpose, hextrinsic, hframe, inverse_frameBelow ▸ hlidar,
    hplace ▸ hworld⟩

/-- The extrinsic is not found between the lidar and the IMU, and the lidar not where it is. -/
theorem lookup_frameBelow_ne :
    (((fresh .short : Station ℝ Empty).newFrame frameBelow).1.bus.treeAt 0).lookup
      "lidar" "imu" ≠ .ok frameBelow.extrinsic ∧
    (((fresh .short : Station ℝ Empty).newFrame frameBelow).1.bus.treeAt 0).lookup
      "world" "lidar" ≠ .ok ((Pose.identity.compose frameBelow.pose).compose
        frameBelow.extrinsic.inverse) := by
  obtain ⟨-, hchained⟩ := newFrame_chained ready_fresh_short isProper_frameBelow.1
    isProper_frameBelow.2
  constructor
  · intro h
    have hlidar := hchained.hangs.lookup_lidar_imu.symm.trans h
    rw [inverse_frameBelow, Except.ok.injEq, frameBelow] at hlidar
    norm_num at hlidar
  · intro h
    have hworld := hchained.hangs.lookup_world_lidar.symm.trans h
    rw [inverse_frameBelow, Except.ok.injEq] at hworld
    have hheight : (frameBelow.extrinsic).translation.z = -1 := by
      simpa [fresh, Viewer.start, Trajectory.start, frameBelow] using
        congrArg (·.translation.z) hworld
    norm_num [frameBelow] at hheight

end LiveMap.Station
