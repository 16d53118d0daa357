import LiveMap.Estimation
import LiveMap.Notice

/-!
# Global maps

The map of the world is rebuilt from submap clouds. Each cloud is retained once, in the frame of its
submap, and every rebuild places all of them by the poses that hold at that time.

## Main definitions

* `GlobalMap` with `GlobalMap.append` and `GlobalMap.extend`: the retained clouds.
* `GlobalMap.deliver`: a list of submaps taken, which answers by the number of its new clouds.
* `GlobalMap.assemble`: all clouds in the world; `GlobalMap.merge` also counts the rebuild.
-/

namespace LiveMap

/-- The retained clouds in the order in which they came, the number of their points, and the number
of rebuilds. -/
structure GlobalMap (K : Type) where
  clouds : List (NumArray K) := []
  totalPoints : Nat := 0
  merges : Nat := 0

/-- Why a map cannot be rebuilt. -/
inductive MergeError where
  | tooFewPoses (poses clouds : Nat)
  | cloud (cause : PoseError)
  deriving DecidableEq, Repr

def MergeError.message : MergeError → String
  | tooFewPoses poses clouds =>
    "Got " ++ toString poses ++ " poses for " ++ toString clouds ++ " retained submaps"
  | cloud cause => cause.message

namespace GlobalMap

variable {K : Type}

def count (m : GlobalMap K) : Nat := m.clouds.length

def append (m : GlobalMap K) (cloud : NumArray K) : GlobalMap K :=
  { m with clouds := m.clouds ++ [cloud], totalPoints := m.totalPoints + cloud.length }

/-- The submaps of a list whose clouds are not retained yet. -/
def unseen (m : GlobalMap K) (submaps : List (Submap K)) : List (Submap K) := submaps.drop m.count

/-- The map with the clouds that it does not retain yet. -/
def extend (m : GlobalMap K) (submaps : List (Submap K)) : GlobalMap K :=
  (m.unseen submaps).foldl (fun m s => m.append (.ofPoints s.points)) m

/-- Retains the clouds that are new, and tells how many they are. -/
def deliver (m : GlobalMap K) (submaps : List (Submap K)) : GlobalMap K × Nat :=
  (m.extend submaps, (m.unseen submaps).length)

/-- What there is to say about a list of submaps that is shorter than one before it. -/
def extendNotices (m : GlobalMap K) (submaps : List (Submap K)) : List (Notice K) :=
  if submaps.length < m.count then [.submapsShrank m.count submaps.length] else []

@[simp] theorem count_append (m : GlobalMap K) (cloud : NumArray K) :
    (m.append cloud).count = m.count + 1 := by
  simp [count, append]

theorem clouds_foldl_append (submaps : List (Submap K)) (m : GlobalMap K) :
    (submaps.foldl (fun m s => m.append (.ofPoints s.points)) m).clouds =
      m.clouds ++ submaps.map fun s => NumArray.ofPoints s.points := by
  induction submaps generalizing m with
  | nil => simp
  | cons s rest ih =>
    rw [List.foldl_cons, ih]
    simp [append]

theorem clouds_extend (m : GlobalMap K) (submaps : List (Submap K)) :
    (m.extend submaps).clouds =
      m.clouds ++ (m.unseen submaps).map fun s => NumArray.ofPoints s.points :=
  clouds_foldl_append _ _

/-- The points that stand in the rows of a cloud: a single one stands in all of them. -/
def fillRows (rows : Nat) : List (Vec3 K) → List (Vec3 K)
  | [p] => List.replicate rows p
  | ps => ps

theorem fillRows_length (ps : List (Vec3 K)) : fillRows ps.length ps = ps := by
  unfold fillRows
  split <;> simp

variable [Scalar K]

/-- The points of a cloud in the world. -/
def placed (cloud : NumArray K) (T_world_origin : Pose K) : Except MergeError (List (Vec3 K)) :=
  match T_world_origin.transformPoints cloud with
  | .ok ps => .ok (fillRows cloud.length ps)
  | .error cause => .error (.cloud cause)

@[simp] theorem placed_ofPoints (ps : List (Vec3 K)) (T : Pose K) :
    placed (.ofPoints ps) T = .ok (T.mapPoints ps) := by
  have h := fillRows_length (T.mapPoints ps)
  simp only [placed, Pose.transformPoints_ofPoints]
  simpa [Pose.mapPoints, NumArray.ofPoints, NumArray.length] using h

/-- The points of clouds in the world, one cloud after the other. -/
def placeAll : List (NumArray K × Pose K) → Except MergeError (List (Vec3 K))
  | [] => .ok []
  | (cloud, T) :: rest => do return (← placed cloud T) ++ (← placeAll rest)

/-- The whole map in the world, by a pose for every retained cloud. Further poses are not used. -/
def assemble (m : GlobalMap K) (poses : List (Pose K)) : Except MergeError (List (Vec3 K)) :=
  if poses.length < m.count then .error (.tooFewPoses poses.length m.count)
  else placeAll (m.clouds.zip poses)

/-- The whole map, and the record that it was rebuilt. -/
def merge (m : GlobalMap K) (poses : List (Pose K)) :
    Except MergeError (List (Vec3 K) × GlobalMap K) := do
  return (← m.assemble poses, { m with merges := m.merges + 1 })

end GlobalMap

end LiveMap
