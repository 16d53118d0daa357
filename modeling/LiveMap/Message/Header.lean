import LiveMap.Geometry.Pose

/-!
# Stamped messages

What the viewer tells about poses: relations between frames, poses of bodies, odometry. Each carries
the time it holds for and the frame it is expressed in.

## Main definitions

* `Header`: stamp and frame.
* `StampedTransform`: the relation `T_parent_child` of two frames, with `StampedTransform.toPose`.
* `StampedPose`, `Odometry`: poses in a frame.
-/

namespace LiveMap

/-- When a message holds, in seconds, and in which frame. -/
structure Header (K : Type) where
  stamp : K
  frame : String
  deriving DecidableEq, Repr

/-- The relation between the frame of the header and a child frame, as translation and rotation. The
two arrays may come from outside and are looked at only when the relation is used. -/
structure StampedTransform (K : Type) where
  header : Header K
  child : String
  translation : NumArray K
  rotation : NumArray K

/-- The place and attitude of a body in the frame of the header. -/
structure StampedPose (K : Type) where
  header : Header K
  position : Vec3 K
  orientation : Quaternion K
  deriving DecidableEq, Repr

/-- The pose of a child frame in the frame of the header; velocities are not estimated. -/
structure Odometry (K : Type) where
  header : Header K
  child : String
  position : Vec3 K
  orientation : Quaternion K
  deriving DecidableEq, Repr

variable {K : Type} [Scalar K]

namespace StampedTransform

/-- The message of a pose; it has none unless the rotation has a quaternion. -/
def ofPose (parent child : String) (stamp : K) (T : Pose K) :
    Except PoseError (StampedTransform K) := do
  let q ← T.rotation.toQuaternion
  return ⟨⟨stamp, parent⟩, child, .ofVec3 T.translation, q.toArray⟩

/-- The pose that the message stands for. -/
def toPose (m : StampedTransform K) : Except PoseError (Pose K) :=
  Pose.ofQuaternion (.ofArray m.rotation) (.ofArray m.translation)

end StampedTransform

def StampedPose.ofPose (frame : String) (stamp : K) (T : Pose K) :
    Except PoseError (StampedPose K) := do
  let q ← T.rotation.toQuaternion
  return ⟨⟨stamp, frame⟩, T.translation, q⟩

namespace Odometry

/-- The message before anything is known: the child at the origin, not turned. -/
def atOrigin (header : Header K) (child : String) : Odometry K :=
  ⟨header, child, .zero, .identity⟩

def ofPose (frame child : String) (stamp : K) (T : Pose K) : Except PoseError (Odometry K) := do
  let q ← T.rotation.toQuaternion
  return ⟨⟨stamp, frame⟩, child, T.translation, q⟩

end Odometry

end LiveMap
