import LiveMap.Config.Value

/-!
# Settings

The names under which the viewer is configured, and what each is worth when nothing is said.

## Main definitions

* `Setting`: the twelve settings, with `Setting.name` and `Setting.standard`.
* `Config`: a value for every setting, from `Config.ofMapping` or `Config.ofDocument`.
* `ConfigError`: why a document is no configuration.
-/

namespace LiveMap

/-- What can be configured: names of frames, topics of channels, and times in seconds. -/
inductive Setting where
  | imuFrame
  | lidarFrame
  | odomFrame
  | worldFrame
  | pointsTopic
  | mapTopic
  | odomTopic
  | poseTopic
  | tfTopic
  | period
  | joinTimeout
  | stampTolerance
  deriving DecidableEq, Repr

namespace Setting

def all : List Setting :=
  [imuFrame, lidarFrame, odomFrame, worldFrame, pointsTopic, mapTopic, odomTopic, poseTopic,
    tfTopic, period, joinTimeout, stampTolerance]

theorem mem_all (s : Setting) : s ∈ all := by
  cases s <;> decide

def name : Setting → String
  | imuFrame => "imu_frame_id"
  | lidarFrame => "lidar_frame_id"
  | odomFrame => "odom_frame_id"
  | worldFrame => "world_frame_id"
  | pointsTopic => "points_topic"
  | mapTopic => "map_topic"
  | odomTopic => "odom_topic"
  | poseTopic => "pose_topic"
  | tfTopic => "tf_topic"
  | period => "period"
  | joinTimeout => "join_timeout"
  | stampTolerance => "stamp_tolerance"

/-- The value of a setting when nothing is said. -/
def standard : Setting → Value
  | imuFrame => .text "imu"
  | lidarFrame => .text "lidar"
  | odomFrame => .text "odom"
  | worldFrame => .text "world"
  | pointsTopic => .text "/slamviz/points"
  | mapTopic => .text "/slamviz/map"
  | odomTopic => .text "/slamviz/odom"
  | poseTopic => .text "/slamviz/pose"
  | tfTopic => .text "/tf"
  | period => .real 0.01
  | joinTimeout => .real 5
  | stampTolerance => .real 0.1

/-- The setting of a key. -/
def ofKey? (key : Value) : Option Setting := all.find? fun s => (Value.text s.name).same key

end Setting

/-- A value for every setting. -/
abbrev Config := Setting → Value

/-- Why a document is no configuration. -/
inductive ConfigError where
  | unknownKey (key : Value)
  | notMapping

namespace Config

/-- The configuration when nothing is said. -/
def standard : Config := Setting.standard

/-- The settings of a mapping, the others at their standard. The first key that is no setting is
reported. -/
def ofMapping (m : Mapping) : Except ConfigError Config :=
  match m.find? fun p => (Setting.ofKey? p.1).isNone with
  | some p => .error (.unknownKey p.1)
  | none => .ok fun s => (Mapping.get? m (.text s.name)).getD s.standard

/-- The settings of a document. They may stand in a section of their own, beside other keys that are
not looked at; an empty document has none. -/
def ofDocument (document : Value) : Except ConfigError Config :=
  if document.isEmpty then ofMapping []
  else
    match document with
    | .mapping pairs =>
      match Mapping.get? pairs (.text "viewer") with
      | some (.mapping section_) => ofMapping section_
      | _ => ofMapping pairs
    | _ => .error .notMapping

def isStandard (c : Config) : Bool := Setting.all.all fun s => (c s).same s.standard

end Config

end LiveMap
