import LiveMap.Geometry.Pose
import LiveMap.Notice
import LiveMap.Trajectory.Bisection

/-!
# Trajectories

Odometry is continuous but drifts; the map is consistent but late. A trajectory keeps the odometry
samples and one correction, the anchor `T_world_odom`. An anchor update maps the sample nearest in
time to a corrected pose and releases the samples before it.

## Main definitions

* `Trajectory` with `Trajectory.add`, `Trajectory.toWorld` and `Trajectory.latest?`.
* `nearestIndex`: the sample that an anchor update is matched with.
* `Trajectory.updateAnchor`, and `Trajectory.anchorNotices` for what there is to say about it.
-/

namespace LiveMap

/-- An odometry sample: the pose `T_odom_imu` at a time. -/
structure Sample (K : Type) where
  stamp : K
  pose : Pose K

/-- The retained samples, and the anchor. -/
structure Trajectory (K : Type) where
  /-- How far an anchor update may be from the nearest sample without a warning, in seconds. -/
  tolerance : K
  history : List (Sample K) := []
  anchor : Pose K

variable {K : Type} [Scalar K]

/-- The place behind every sample that is not later. -/
def placeAfter (history : List (Sample K)) (stamp : K) : Nat :=
  bisect (fun s => !decide (stamp < s.stamp)) history

/-- The place behind every sample that is earlier. -/
def placeBefore (history : List (Sample K)) (stamp : K) : Nat :=
  bisect (fun s => decide (s.stamp < stamp)) history

/-- The samples with one more, at the end unless it is late, and behind those of its time. -/
def insertSample (history : List (Sample K)) (s : Sample K) : List (Sample K) :=
  match history.getLast? with
  | none => [s]
  | some last =>
    if last.stamp ≤ s.stamp then history ++ [s]
    else history.insertIdx (placeAfter history s.stamp) s

theorem length_insertSample (history : List (Sample K)) (s : Sample K) :
    (insertSample history s).length = history.length + 1 := by
  simp only [insertSample]
  split
  · next h => simp [List.getLast?_eq_none_iff.mp h]
  · split
    · simp
    · exact List.length_insertIdx_of_le_length (bisect_le_length _ _) _

/-- The place of the sample nearest to a time; of two equally near the earlier. -/
def nearestIndex (history : List (Sample K)) (stamp : K) : Nat :=
  match placeBefore history stamp with
  | 0 => 0
  | before + 1 =>
    match history[before]?, history[before + 1]? with
    | some early, some late =>
      if late.stamp - stamp < stamp - early.stamp then before + 1 else before
    | _, _ => before

namespace Trajectory

/-- No sample yet, and nothing to correct. -/
def start (tolerance : K) : Trajectory K := { tolerance, anchor := .identity }

def add (t : Trajectory K) (stamp : K) (T_odom_imu : Pose K) : Trajectory K :=
  { t with history := insertSample t.history ⟨stamp, T_odom_imu⟩ }

/-- A pose in the odometry frame, seen from the world. -/
def toWorld (t : Trajectory K) (pose : Pose K) : Pose K := t.anchor.compose pose

/-- Points in the odometry frame, seen from the world. -/
def pointsToWorld (t : Trajectory K) (points : NumArray K) : Except PoseError (List (Vec3 K)) :=
  t.anchor.transformPoints points

omit [Scalar K] in
def latest? (t : Trajectory K) : Option K := t.history.getLast?.map Sample.stamp

/-- The sample that an anchor update at a time is matched with. -/
def nearest? (t : Trajectory K) (stamp : K) : Option (Sample K) :=
  t.history[nearestIndex t.history stamp]?

/-- The trajectory after a correction: the nearest sample is mapped to `T_world_imu`, and the
samples before it are released. Without samples there is nothing to correct. -/
def updateAnchor (t : Trajectory K) (stamp : K) (T_world_imu : Pose K) : Trajectory K :=
  match t.nearest? stamp with
  | none => t
  | some s =>
    { t with
      anchor := T_world_imu.compose s.pose.inverse
      history := t.history.drop (nearestIndex t.history stamp) }

/-- What a correction gives to say: that there is no sample, or that the nearest is far away. -/
def anchorNotices (t : Trajectory K) (stamp : K) : List (Notice K) :=
  match t.nearest? stamp with
  | none => [.anchorWithoutOdometry stamp]
  | some s =>
    let distance := Scalar.abs (s.stamp - stamp)
    if t.tolerance < distance then [.anchorFarFromOdometry stamp distance] else []

/-! ## The matched sample exists -/

theorem nearestIndex_lt_length {history : List (Sample K)} (h : history ≠ []) (stamp : K) :
    nearestIndex history stamp < history.length := by
  have hpos : 0 < history.length := List.length_pos_iff.mpr h
  have hle : placeBefore history stamp ≤ history.length := bisect_le_length _ _
  simp only [nearestIndex]
  split
  · exact hpos
  · next before hb =>
    split
    · next hlate =>
      have := (List.getElem?_eq_some_iff.mp hlate).1
      split <;> omega
    · omega

theorem nearest?_eq_none_iff {t : Trajectory K} {stamp : K} :
    t.nearest? stamp = none ↔ t.history = [] := by
  constructor
  · intro h
    by_cases hne : t.history = []
    · exact hne
    · have := List.getElem?_eq_none_iff.mp h
      have := nearestIndex_lt_length hne stamp
      omega
  · intro h
    simp [nearest?, h]

end Trajectory

end LiveMap
