import LiveMap.Scene.Basic
import Mathlib.Data.List.DropRight

/-!
# The trail of a scene

A scene keeps the latest positions, as many as its limit allows, and shows them as a strip with a
mark at the last one. With each pose one position comes and at most one goes. That this leaves the
latest ones is told by the poses alone: nothing else that is shown meanwhile matters, and a limit
may leave no room at all.

## Main definitions

* `Scene.Showing`, `Scene.act`, `Scene.play`: what a scene is given to show, one thing after the
  other.
* `Scene.visited`: the positions of the poses among it.
* `Scene.trail`: the last positions of a list, as many as a limit allows.

## Main statements

* `Scene.trail_concat`: how a window is extended and cut.
* `Scene.positions_act`, `Scene.positions_play`: one thing more, and a run, leave the trail of the
  positions visited.
* `Scene.drawStrip_ofPoints`: what is drawn of points.
* `Scene.trail_shown`: what is kept and what is drawn, for every limit and every run.
-/

namespace LiveMap

variable {K : Type}

/-- The last row of points is the last point. -/
theorem NumArray.lastRow?_ofPoints (ps : List (Vec3 K)) :
    (NumArray.ofPoints ps).lastRow? = ps.getLast?.map NumArray.ofVec3 := by
  cases ps with
  | nil => rfl
  | cons first rest =>
    let last := (first :: rest).getLast (by simp)
    have hsplit : (first :: rest).dropLast ++ [last] = first :: rest :=
      List.dropLast_append_getLast (by simp)
    have hbefore : ((first :: rest).dropLast.flatMap Vec3.toList).length = rest.length * 3 := by
      rw [Vec3.length_flatMap_toList, List.length_dropLast, List.length_cons, Nat.mul_comm]
      rfl
    have hrow : ((first :: rest).flatMap Vec3.toList).drop (rest.length * 3) = last.toList := by
      rw [← hsplit, List.flatMap_append, List.flatMap_singleton, ← hbefore, List.drop_left]
    rw [List.getLast?_eq_some_getLast (by simp), Option.map_some]
    exact congrArg some (by simpa [ofVec3, ofList, Vec3.toList] using hrow)

namespace Scene

/-! ## Windows -/

/-- The last positions of a list, as many as a limit allows; a negative one allows none. -/
def trail (limit : Int) (ps : List (Vec3 K)) : List (Vec3 K) := ps.rtake limit.toNat

theorem length_trail (limit : Int) (ps : List (Vec3 K)) :
    (trail limit ps).length = min ps.length limit.toNat := by
  simp only [trail, List.rtake, List.length_drop]
  omega

theorem trail_eq_rtake_min (limit : Int) (ps : List (Vec3 K)) :
    trail limit ps = ps.rtake (min ps.length (max 0 limit).toNat) := by
  rw [trail, List.rtake, List.rtake]
  congr 1
  omega

/-- A position goes only when there is no room for one more. -/
theorem trail_concat (limit : Int) (ps : List (Vec3 K)) (p : Vec3 K) :
    trail limit (ps ++ [p]) =
      if limit < (trail limit ps ++ [p]).length then (trail limit ps ++ [p]).drop 1
      else trail limit ps ++ [p] := by
  have hlonger : trail limit ps ++ [p] = (ps ++ [p]).drop (ps.length - limit.toNat) :=
    (List.drop_append_of_le_length (by omega)).symm
  have hlength : (trail limit ps ++ [p]).length = min ps.length limit.toNat + 1 := by
    rw [List.length_append, length_trail, List.length_singleton]
  rw [trail, List.rtake, List.length_append, List.length_singleton]
  split
  case isTrue hfull =>
    rw [hlonger, List.drop_drop]
    congr 1
    omega
  case isFalse hroom =>
    rw [hlonger]
    congr 1
    omega

theorem positions_remember {s : Scene K} {ps : List (Vec3 K)} (h : s.positions = trail s.limit ps)
    (p : Vec3 K) : (s.remember p).positions = trail s.limit (ps ++ [p]) := by
  rw [trail_concat, ← h]
  rfl

/-! ## Runs -/

/-- What a scene can be given to show; the entities of its frames may be named anew. -/
inductive Showing (K : Type) where
  | frames (paths : List (String × String))
  | relation (m : StampedTransform K)
  | scan (m : PointCloud K)
  | map (m : PointCloud K)
  | strip (path : String) (positions : NumArray K)
  | pose (m : StampedPose K)

def Showing.position? : Showing K → Option (Vec3 K)
  | .pose m => some m.position
  | .frames _ | .relation _ | .scan _ | .map _ | .strip _ _ => none

/-- The positions of the poses that were shown, in order. -/
def visited (showings : List (Showing K)) : List (Vec3 K) := showings.filterMap Showing.position?

theorem visited_concat (showings : List (Showing K)) (shown : Showing K) :
    visited (showings ++ [shown]) = visited showings ++ shown.position?.toList := by
  rw [visited, List.filterMap_append]
  cases shown <;> rfl

variable [Scalar K]

/-- One thing is shown: what is drawn, and the scene after it. -/
def act (s : Scene K) : Showing K → List (Draw K) × Scene K
  | .frames paths => ([], { s with paths })
  | .relation m => (s.drawRelation m, s)
  | .scan m => ((s.drawScan m).1, s)
  | .map m => ((drawMap m).1, s)
  | .strip path positions => (drawStrip path positions, s)
  | .pose m => s.drawPose m

def play (showings : List (Showing K)) (s : Scene K) : Scene K :=
  showings.foldl (fun s shown => (s.act shown).2) s

theorem play_concat (showings : List (Showing K)) (shown : Showing K) (s : Scene K) :
    play (showings ++ [shown]) s = ((play showings s).act shown).2 := by
  rw [play, play, List.foldl_concat]

theorem limit_act (s : Scene K) (shown : Showing K) : (s.act shown).2.limit = s.limit := by
  cases shown <;> rfl

theorem limit_play (showings : List (Showing K)) (s : Scene K) :
    (play showings s).limit = s.limit := by
  induction showings generalizing s with
  | nil => rfl
  | cons shown rest ih => exact (ih _).trans (limit_act s shown)

theorem positions_act {s : Scene K} {showings : List (Showing K)}
    (h : s.positions = trail s.limit (visited showings)) (shown : Showing K) :
    (s.act shown).2.positions = trail s.limit (visited (showings ++ [shown])) := by
  rw [visited_concat]
  cases shown with
  | pose m => exact positions_remember h m.position
  | frames | relation | scan | map | strip => simpa [act, Showing.position?] using h

/-- A run from an empty scene leaves the trail of the positions visited in it. -/
theorem positions_play (limit : Int) (showings : List (Showing K)) :
    (play showings { limit }).positions = trail limit (visited showings) := by
  -- from the end, where the window is extended and cut
  induction showings using List.reverseRecOn with
  | nil => simp [play, visited, trail]
  | append_singleton earlier shown ih =>
    have hlimit : (play earlier { limit }).limit = limit := limit_play earlier { limit }
    rw [play_concat]
    have hact := positions_act (s := play earlier { limit }) (by rw [hlimit, ih]) shown
    rwa [hlimit] at hact

/-! ## Strips -/

/-- Of two or more points a strip is drawn, and a mark at the last of them; of fewer nothing is
drawn. -/
theorem drawStrip_ofPoints (path : String) (ps : List (Vec3 K)) :
    drawStrip path (.ofPoints ps) =
      if 2 ≤ ps.length then
        [.item path (.strip (.ofPoints ps) [⟨255, 255, 0⟩] 0.01),
          .item (path ++ "/current")
            (.points (ps.getLast?.toList.map .ofVec3) [⟨0, 255, 255⟩] 0.05)]
      else [] := by
  rw [drawStrip, NumArray.lastRow?_ofPoints]
  have hlength : (NumArray.ofPoints ps).length = ps.length := rfl
  cases hlast : ps.getLast? with
  | none =>
    rw [List.getLast?_eq_none_iff] at hlast
    rw [hlast]
    rfl
  | some last =>
    rw [hlength]
    by_cases hshort : ps.length < 2
    · simp [hshort]
    · simp [hshort, Nat.le_of_not_lt hshort]

/-- Whatever the limit of a scene, zero and below included, and whatever it was given to show since
it was opened: the positions that it keeps are the last ones of the poses, `limit` of them or all if
there are fewer. One pose more shows the window that it leaves as a strip with a mark at its last
position if there are two or more in it, and nothing but the time otherwise. -/
theorem trail_shown (limit : Int) (showings : List (Showing K)) :
    (play showings { limit }).positions =
      (visited showings).rtake (min (visited showings).length (max 0 limit).toNat) ∧
    ∀ m : StampedPose K,
      let window := (visited showings ++ [m.position]).rtake
        (min ((visited showings).length + 1) (max 0 limit).toNat)
      ((play showings { limit }).act (.pose m)).1 =
        .sensorTime m.header.stamp ::
          if 2 ≤ window.length then
            [.item "world/trajectory" (.strip (.ofPoints window) [⟨255, 255, 0⟩] 0.01),
              .item "world/trajectory/current"
                (.points (window.getLast?.toList.map .ofVec3) [⟨0, 255, 255⟩] 0.05)]
          else [] := by
  have hlimit : (play showings { limit }).limit = limit := limit_play showings { limit }
  have hpositions := positions_play limit showings
  refine ⟨by rw [hpositions, trail_eq_rtake_min], fun m => ?_⟩
  intro window
  have hwindow : window = trail limit (visited showings ++ [m.position]) := by
    rw [trail_eq_rtake_min, List.length_append, List.length_singleton]
  have hafter : ((play showings { limit }).remember m.position).positions = window := by
    rw [positions_remember (by rw [hlimit, hpositions]), hlimit, hwindow]
  rw [act, drawPose, hafter, drawStrip_ofPoints]
  rfl

end Scene

end LiveMap
