import LiveMap.Bus.Basic
import LiveMap.Config.Setting
import LiveMap.Estimation

/-!
# Settings of a viewer

A configuration read for use: names as texts, times as scalars.

## Main definitions

* `Settings` with `Settings.frameName`.
* `Settings.ofConfig`: the settings of a configuration.
-/

namespace LiveMap

/-- The names of frames, the topics of outputs, and the times in seconds that a viewer goes by. -/
structure Settings (K : Type) where
  imuFrame : String
  lidarFrame : String
  odomFrame : String
  worldFrame : String
  topic : Output → String
  period : K
  joinTimeout : K
  stampTolerance : K

namespace Settings

/-- The name of the frame that points are expressed in. -/
def frameName {K : Type} (s : Settings K) : SensorFrame → String
  | .lidar => s.lidarFrame
  | .imu => s.imuFrame
  | .world => s.worldFrame

/-- The entities that a scene gives to the frames of a viewer. -/
def paths {K : Type} (s : Settings K) : List (String × String) :=
  Scene.chainPaths s.worldFrame s.odomFrame s.imuFrame s.lidarFrame

end Settings

def Output.topicSetting : Output → Setting
  | points => .pointsTopic
  | map => .mapTopic
  | odometry => .odomTopic
  | pose => .poseTopic
  | relations => .tfTopic

/-- The number that a value stands for; truth values count as one and zero, and what is no number is
undefined. -/
def Value.number : Value → Float
  | .real x => x
  | .int n => Float.ofInt n
  | .bool b => if b then 1 else 0
  | _ => 0 / 0

def Settings.ofConfig (c : Config) : Settings Float where
  imuFrame := (c .imuFrame).spell false
  lidarFrame := (c .lidarFrame).spell false
  odomFrame := (c .odomFrame).spell false
  worldFrame := (c .worldFrame).spell false
  topic o := (c o.topicSetting).spell false
  period := (c .period).number
  joinTimeout := (c .joinTimeout).number
  stampTolerance := (c .stampTolerance).number

end LiveMap
