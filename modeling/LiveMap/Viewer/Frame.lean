import LiveMap.Slot.Basic
import LiveMap.Viewer.Basic

/-!
# Frames

What a viewer tells when a scan was estimated, as a sequence of steps. Another thread may act
between any two of them: the sample enters the trajectory and the anchor is read in one step, and
all later steps use what was read then.

## Main definitions

* `FrameStep`: the steps, with `FrameStep.all` in their order.
* `FrameRun.perform`: one step.
* `Station.newFrame`: all steps, up to the first that fails.
-/

namespace LiveMap

/-- The relations that are told for every frame. -/
inductive FrameRelation where
  | odomToImu
  | imuToLidar
  | worldToOdom
  deriving DecidableEq, Repr

/-- What is done for a frame. -/
inductive FrameStep where
  /-- Counts the frame, and publishes its points if they are heard. -/
  | scan
  /-- Puts the sample into the trajectory and reads the anchor. -/
  | sample
  | relation (r : FrameRelation)
  | odometry
  | pose
  | report
  deriving DecidableEq, Repr

def FrameStep.all : List FrameStep :=
  [scan, sample, relation .odomToImu, relation .imuToLidar, relation .worldToOdom, odometry, pose,
    report]

/-- A viewer in the middle of a frame: the anchor and the pose in the world that were read when the
sample entered the trajectory. -/
structure FrameRun (K ρ : Type) where
  station : Station K ρ
  anchor : Pose K
  worldPose : Pose K

namespace FrameRun

variable {K ρ : Type}

def modify (f : Station K ρ → Station K ρ) (run : FrameRun K ρ) : FrameRun K ρ :=
  { run with station := f run.station }

/-- The parent, the child and the pose of a relation. -/
def relationOf (f : EstimationFrame K) (r : FrameRelation) (run : FrameRun K ρ) :
    String × String × Pose K :=
  let s := run.station.viewer.settings
  match r with
  | .odomToImu => (s.odomFrame, s.imuFrame, f.pose)
  | .imuToLidar => (s.imuFrame, s.lidarFrame, f.extrinsic)
  | .worldToOdom => (s.worldFrame, s.odomFrame, run.anchor)

variable [Scalar K]

/-- Publishes the points of a frame if they are heard. -/
def publishScan (f : EstimationFrame K) (s : Station K ρ) : Station K ρ :=
  if s.isHeard .points then
    let cloud := PointCloud.pack (s.viewer.settings.frameName f.frame) f.stamp f.points
    let counted := s.count fun n =>
      { n with pointsConverted := n.pointsConverted + f.points.length }
    counted.publish .points (.cloud cloud)
  else s

/-- Puts the sample of a frame into the trajectory, and reads the anchor and the pose in the world.
-/
def takeSample (f : EstimationFrame K) (run : FrameRun K ρ) : FrameRun K ρ :=
  let s := run.station
  let trajectory := s.viewer.trajectory.add f.stamp f.pose
  { station := { s with viewer := { s.viewer with trajectory } }
    anchor := trajectory.anchor
    worldPose := trajectory.toWorld f.pose }

/-- Publishes a relation, whether it is heard or not. It fails on a pose without quaternion. -/
def publishRelation (f : EstimationFrame K) (r : FrameRelation) (run : FrameRun K ρ) :
    FrameRun K ρ × Option PoseError :=
  let (parent, child, T) := run.relationOf f r
  match StampedTransform.ofPose parent child f.stamp T with
  | .ok m => (run.modify fun s => s.publish .relations (.relation m), none)
  | .error e => (run, some e)

/-- Publishes the odometry of a frame if it is heard. -/
def publishOdometry (f : EstimationFrame K) (run : FrameRun K ρ) :
    FrameRun K ρ × Option PoseError :=
  let names := run.station.viewer.settings
  if run.station.isHeard .odometry then
    match Odometry.ofPose names.odomFrame names.imuFrame f.stamp f.pose with
    | .ok m =>
      (run.modify fun s => (s.publish .odometry (.odometry m)).count fun n =>
        { n with odometryPublished := n.odometryPublished + 1 }, none)
    | .error e => (run, some e)
  else (run, none)

/-- Publishes the pose in the world if it is heard. -/
def publishPose (f : EstimationFrame K) (run : FrameRun K ρ) : FrameRun K ρ × Option PoseError :=
  let names := run.station.viewer.settings
  if run.station.isHeard .pose then
    match StampedPose.ofPose names.worldFrame f.stamp run.worldPose with
    | .ok m =>
      (run.modify fun s => (s.publish .pose (.pose m)).count fun n =>
        { n with posesPublished := n.posesPublished + 1 }, none)
    | .error e => (run, some e)
  else (run, none)

/-- One step. One that fails changes nothing. -/
def perform (f : EstimationFrame K) (step : FrameStep) (run : FrameRun K ρ) :
    FrameRun K ρ × Option PoseError :=
  match step with
  | .scan =>
    (run.modify fun s => publishScan f (s.count fun n => { n with frames := n.frames + 1 }), none)
  | .sample => (run.takeSample f, none)
  | .relation r => run.publishRelation f r
  | .odometry => run.publishOdometry f
  | .pose => run.publishPose f
  | .report => (run.modify (note (.framePublished f.id f.stamp)), none)

end FrameRun

/-- All that a viewer does for a frame, up to the first step that fails. -/
def Station.newFrame {K ρ : Type} [Scalar K] (f : EstimationFrame K) (s : Station K ρ) :
    Station K ρ × Option PoseError :=
  let (run, failure) := invokeAll (FrameRun.perform f) FrameStep.all ⟨s, .identity, .identity⟩
  (run.station, failure)

end LiveMap
