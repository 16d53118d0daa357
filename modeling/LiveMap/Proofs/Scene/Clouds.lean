import LiveMap.Proofs.Message.PackedCloud
import LiveMap.Proofs.Numeric.Order
import LiveMap.Scene.Basic

/-!
# Clouds that are shown

A cloud is shown as its points, in their order, and a colour for each; without points nothing is
shown. Of the map only valid points are shown, so that others cannot change the colours either. Of a
scan all points are shown.

## Main definitions

* `Vec3.isValid`: all three coordinates are finite.
* `ShownCloud`, `Scene.clouds`: the clouds among what a scene does.
* `Scene.shown`: what there is to see of points.

## Main statements

* `Scene.clouds_drawMap`, `Scene.clouds_drawScan`: which points are shown of a message.
* `Scene.clouds_drawn`: invalid points are kept out of the map, and not out of scans.
-/

namespace LiveMap

/-- All three coordinates are finite. -/
def Vec3.isValid (p : Vec3 Float) : Bool := p.x.isFinite && p.y.isFinite && p.z.isFinite

theorem Vec3.isFinite_iff {p : Vec3 Float} : p.IsFinite ↔ p.isValid = true := by
  rw [IsFinite, isValid, Binary64.scalar_isFinite_iff, Binary64.scalar_isFinite_iff,
    Binary64.scalar_isFinite_iff, Bool.and_eq_true, Bool.and_eq_true, and_assoc]

/-- A cloud as it is shown: its entity, its points and their colours. -/
structure ShownCloud (K : Type) where
  path : String
  rows : List (NumArray K)
  colours : List Colour

def Draw.cloud? {K : Type} : Draw K → Option (ShownCloud K)
  | .item path (.points rows colours _) => some ⟨path, rows, colours⟩
  | _ => none

namespace Scene

/-- The clouds among what a scene does. -/
def clouds {K : Type} (draws : List (Draw K)) : List (ShownCloud K) := draws.filterMap Draw.cloud?

section Shown

variable {K : Type} [Scalar K]

/-- What there is to see of points at an entity. -/
def shown (path : String) (ps : List (Vec3 K)) : List (ShownCloud K) :=
  if ps.isEmpty then []
  else
    let colours := HeightColour.ofHeights HeightColour.singleDifference (ps.map Vec3.z)
    [⟨path, ps.map NumArray.ofVec3, colours.getD []⟩]

/-- The points can be told from what is seen of them. -/
theorem shown_injective (path : String) : Function.Injective (shown (K := K) path) := by
  intro ps qs h
  have hofVec3 : Function.Injective (NumArray.ofVec3 : Vec3 K → NumArray K) := by
    intro p q hpq
    simpa using congrArg NumArray.vec3? hpq
  cases ps with
  | nil =>
    cases qs with
    | nil => rfl
    | cons q qs => cases h
  | cons p ps =>
    cases qs with
    | nil => cases h
    | cons q qs =>
      have hrows := congrArg (List.map ShownCloud.rows) h
      exact hofVec3.list_map (List.cons.inj hrows).1

/-! ## One message -/

variable {m : PointCloud K} {ps : List (Vec3 K)}

theorem clouds_drawScan (s : Scene K) (h : m.points = .ok ps) :
    clouds (s.drawScan m).1 = shown (s.entityPath m.header.frame ++ "/points") ps := by
  unfold drawScan
  rw [h]
  cases ps <;> rfl

theorem clouds_drawMap (h : m.points = .ok ps) :
    clouds (drawMap m).1 =
      shown (world ++ "/map") (ps.filter fun p => decide p.IsFinite) := by
  unfold drawMap
  rw [h]
  dsimp only
  cases ps.filter fun p => decide p.IsFinite <;> rfl

/-- Of a message that cannot be read nothing is shown. -/
theorem clouds_of_unreadable (s : Scene K) {e : CloudError} (h : m.points = .error e) :
    clouds (drawMap m).1 = [] ∧ clouds (s.drawScan m).1 = [] := by
  unfold drawMap drawScan
  rw [h]
  exact ⟨rfl, rfl⟩

end Shown

/-- Of a message that cannot be read nothing is shown. Of the map the valid points are shown, in
their order, and nothing if there are none; so messages that differ in invalid points only show the
same points in the same colours. Of a scan all points are shown: it is the valid points that are
shown just when there are no others. -/
theorem clouds_drawn (s : Scene Float) (m : PointCloud Float) :
    (∀ e, m.points = .error e → clouds (drawMap m).1 = [] ∧ clouds (s.drawScan m).1 = []) ∧
    ∀ ps, m.points = .ok ps →
      clouds (drawMap m).1 = shown "world/map" (ps.filter Vec3.isValid) ∧
      (∀ m' ps', m'.points = .ok ps' → ps'.filter Vec3.isValid = ps.filter Vec3.isValid →
        clouds (drawMap m').1 = clouds (drawMap m).1) ∧
      clouds (s.drawScan m).1 = shown (s.entityPath m.header.frame ++ "/points") ps ∧
      (clouds (s.drawScan m).1 =
          shown (s.entityPath m.header.frame ++ "/points") (ps.filter Vec3.isValid) ↔
        ∀ p ∈ ps, p.isValid = true) := by
  have hmap {m' : PointCloud Float} {ps' : List (Vec3 Float)} (h : m'.points = .ok ps') :
      clouds (drawMap m').1 = shown "world/map" (ps'.filter Vec3.isValid) := by
    have hvalid : (fun p : Vec3 Float => decide p.IsFinite) = Vec3.isValid :=
      funext fun p => by simp [Vec3.isFinite_iff]
    rw [clouds_drawMap h, hvalid]
    rfl
  refine ⟨fun e he => clouds_of_unreadable s he, fun ps h => ⟨hmap h, ?_, clouds_drawScan s h, ?_⟩⟩
  · intro m' ps' h' hsame
    rw [hmap h, hmap h', hsame]
  · rw [clouds_drawScan s h, (shown_injective _).eq_iff, eq_comm, List.filter_eq_self]

/-- A point at infinity between two others. -/
def strayPoint : List (Vec3 Float) := [⟨0, 0, 0⟩, ⟨.ofBits 0x7FF0000000000000, 0, 20⟩, ⟨0, 0, 10⟩]

theorem filter_strayPoint : (strayPoint.map Vec3.single).filter Vec3.isValid =
    [⟨0, 0, 0⟩, ⟨0, 0, 10⟩] := by
  decide +kernel

/-- The map shows two of the three points, the scan all of them. -/
theorem clouds_drawn_strayPoint :
    ∃ ps, (PointCloud.pack "imu" 1 strayPoint).points = .ok ps ∧ ps.length = 3 ∧
      clouds (drawMap (.pack "imu" 1 strayPoint)).1 =
        shown "world/map" ([⟨0, 0, 0⟩, ⟨0, 0, 10⟩] : List (Vec3 Float)) ∧
      clouds (({} : Scene Float).drawScan (.pack "imu" 1 strayPoint)).1 =
        shown "world/imu/points" ps := by
  have hpoints := PointCloud.points_pack "imu" 1 strayPoint
  obtain ⟨hmap, -, hscan, -⟩ := (clouds_drawn {} (.pack "imu" 1 strayPoint)).2 _ hpoints
  rw [filter_strayPoint] at hmap
  exact ⟨_, hpoints, rfl, hmap, hscan⟩

/-- A scan shows a point at infinity. -/
theorem clouds_drawScan_strayPoint :
    ∃ ps, (PointCloud.pack "imu" 1 strayPoint).points = .ok ps ∧
      clouds (({} : Scene Float).drawScan (.pack "imu" 1 strayPoint)).1 ≠
        shown "world/imu/points" (ps.filter Vec3.isValid) := by
  have hpoints := PointCloud.points_pack "imu" 1 strayPoint
  refine ⟨_, hpoints, fun hsame => ?_⟩
  have hall := shown_injective _ ((clouds_drawScan {} hpoints).symm.trans hsame)
  rw [filter_strayPoint] at hall
  exact absurd (congrArg List.length hall) (by decide)

end Scene

end LiveMap
