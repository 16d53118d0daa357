import LiveMap.Message.PointCloud
import LiveMap.Scene.Draw

/-!
# Scenes

A scene shows what the viewer tells: relations as the places of entities in a tree that follows the
frames, clouds coloured by height, and the latest positions as a strip.

## Main definitions

* `Scene` with `Scene.entityPath`: where the things of a frame stand.
* `Scene.drawRelation`, `Scene.drawScan`, `Scene.drawMap`, `Scene.drawStrip`: what is drawn.
* `Scene.remember`: the window of positions that the strip shows.
-/

namespace LiveMap

/-- The entities of known frames, and the latest positions, at most `limit` of them. -/
structure Scene (K : Type) where
  paths : List (String × String) := []
  positions : List (Vec3 K) := []
  limit : Int := 100000

namespace Scene

variable {K : Type}

/-- The name under which a scene is shown when nothing else is said. -/
def standardApplication : String := "slamviz"

/-- The entity that everything stands under. -/
def world : String := "world"

/-- What is done when a scene is opened. -/
def opening (application : String) (shown : Bool) : List (Draw K) :=
  [.opened application shown, .fixed world .rightHandedUp, .layout "SLAM" world]

/-- The entity of a frame; one that is not known stands right under the world. -/
def entityPath (s : Scene K) (frame : String) : String :=
  (s.paths.lookup frame).getD (world ++ "/" ++ frame)

/-- The entities of four frames that hang together in a row. One name for several frames means the
last of them. -/
def chainPaths (worldFrame odomFrame imuFrame lidarFrame : String) : List (String × String) :=
  [(lidarFrame, world ++ "/odom/imu/lidar"), (imuFrame, world ++ "/odom/imu"),
    (odomFrame, world ++ "/odom"), (worldFrame, world)]

/-- A relation, at the entity of its child. -/
def drawRelation (s : Scene K) (m : StampedTransform K) : List (Draw K) :=
  [.sensorTime m.header.stamp, .item (s.entityPath m.child) (.relation m.translation m.rotation)]

/-- The window of positions after one more: the oldest is dropped when there are too many. -/
def remember (s : Scene K) (p : Vec3 K) : Scene K :=
  let longer := s.positions ++ [p]
  { s with positions := if s.limit < longer.length then longer.drop 1 else longer }

variable [Scalar K]

/-- A cloud whose points were packed, coloured by height. -/
def heightColoured (ps : List (Vec3 K)) (radius : K) : Item K :=
  let colours := HeightColour.ofHeights HeightColour.singleDifference (ps.map Vec3.z)
  .points (ps.map NumArray.ofVec3) (colours.getD []) radius

/-- The cloud of a scan, under the entity of its frame, and whether the message could be read. -/
def drawScan (s : Scene K) (m : PointCloud K) : List (Draw K) × Bool :=
  match m.points with
  | .error _ => ([.sensorTime m.header.stamp], false)
  | .ok [] => ([.sensorTime m.header.stamp], true)
  | .ok ps =>
    ([.sensorTime m.header.stamp,
      .item (s.entityPath m.header.frame ++ "/points") (heightColoured ps 0.02)], true)

/-- The bounded points of the map, and whether the message could be read. -/
def drawMap (m : PointCloud K) : List (Draw K) × Bool :=
  match m.points with
  | .error _ => ([.wallTime m.header.stamp], false)
  | .ok ps =>
    match ps.filter fun p => decide p.IsFinite with
    | [] => ([.wallTime m.header.stamp], true)
    | bounded => ([.wallTime m.header.stamp, .item (world ++ "/map") (heightColoured bounded 0.03)],
        true)

/-- Positions as a strip with a mark at the last, when there are two or more. -/
def drawStrip (path : String) (positions : NumArray K) : List (Draw K) :=
  match positions.lastRow? with
  | none => []
  | some last =>
    if positions.length < 2 then []
    else
      [.item path (.strip positions [⟨255, 255, 0⟩] 0.01),
        .item (path ++ "/current") (.points [last] [⟨0, 255, 255⟩] 0.05)]

def trajectoryPath : String := world ++ "/trajectory"

/-- The scene after one more pose, and the strip that shows it. -/
def drawPose (s : Scene K) (m : StampedPose K) : List (Draw K) × Scene K :=
  let after := s.remember m.position
  (.sensorTime m.header.stamp :: drawStrip trajectoryPath (.ofPoints after.positions), after)

end Scene

end LiveMap
