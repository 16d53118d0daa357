import LiveMap.Message.PointCloud
import LiveMap.Text.Quoted

/-!
# Estimates

What the pipeline delivers: one frame for every scan, and the submaps built from many of them.

## Main definitions

* `SensorFrame`: the physical frame that a scan is expressed in.
* `EstimationFrame`: the odometry estimate of one scan.
* `Submap`: a consistent segment of the map, with `Submap.endpointPose`.
-/

namespace LiveMap

/-- The physical frame that the points of a scan are expressed in. -/
inductive SensorFrame where
  | lidar
  | imu
  | world
  deriving DecidableEq, Repr

namespace SensorFrame

def tag : SensorFrame → String
  | lidar => "LIDAR"
  | imu => "IMU"
  | world => "WORLD"

/-- The frame of a tag, spelled exactly. -/
def ofTag? (text : String) : Option SensorFrame :=
  [lidar, imu, world].find? fun f => f.tag = text

@[simp] theorem ofTag?_tag (f : SensorFrame) : ofTag? f.tag = some f := by
  cases f <;> rfl

/-- What is said about a text that is no tag. -/
def unknownTag (text : String) : String := quoted text ++ " is not a valid FrameID"

end SensorFrame

/-- The odometry estimate of one scan. -/
structure EstimationFrame (K : Type) where
  stamp : K
  frame : SensorFrame
  /-- The pose of the IMU by odometry, continuous but drifting. -/
  pose : Pose K
  /-- The extrinsic `T_lidar_imu`. -/
  extrinsic : Pose K
  points : List (Vec3 K)
  id : Int := 0

/-- A consistent segment of the map. -/
structure Submap (K : Type) where
  id : Int
  /-- The optimised world pose of the origin. -/
  origin : Pose K
  /-- The last scan of the segment, seen from the origin. -/
  endpoint : Pose K
  /-- The stamp of that scan. -/
  stamp : K
  /-- The points, in the frame of the origin. -/
  points : List (Vec3 K)

/-- The world pose of the last scan of a segment. -/
def Submap.endpointPose {K : Type} [Scalar K] (s : Submap K) : Pose K := s.origin.compose s.endpoint

end LiveMap
