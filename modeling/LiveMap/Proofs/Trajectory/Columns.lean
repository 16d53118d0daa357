import LiveMap.Proofs.Trajectory.Matching
import Mathlib.Data.List.InsertIdx

/-!
# Stamps and poses apart

A history may be kept as two lists, stamps and poses, that are edited one after the other: the place
of every edit is found among the stamps, and the poses follow. Whatever the stamps are, undefined
ones too, the two lists stay the columns of one list of samples.

## Main definitions

* `Columns` with `Columns.add`, `Columns.release` and `Columns.follow`.
* `Columns.told`: the two lists after what a trajectory was told.

## Main statements

* `Columns.told_ofHistory`: the lists are the columns of the history.
-/

namespace LiveMap

/-! ## Places found in one column -/

section Bisection

variable {α β : Type}

theorem bisectBetween_map (behind : β → Bool) (f : α → β) (xs : List α) (low high : Nat) :
    bisectBetween behind (xs.map f) low high =
      bisectBetween (fun x => behind (f x)) xs low high := by
  fun_induction bisectBetween (fun x => behind (f x)) xs low high with
  | case1 low high hlt middle hx =>
    rw [bisectBetween, if_pos hlt]
    simp only [List.getElem?_map, middle, hx, Option.map_none]
  | case2 low high hlt middle x hx hb ih =>
    rw [bisectBetween, if_pos hlt]
    simp only [List.getElem?_map, middle, hx, Option.map_some, if_pos hb, ih]
  | case3 low high hlt middle x hx hb ih =>
    rw [bisectBetween, if_pos hlt]
    simp only [List.getElem?_map, middle, hx, Option.map_some, if_neg hb, ih]
  | case4 low high hlt => rw [bisectBetween, if_neg hlt]

theorem bisect_map (behind : β → Bool) (f : α → β) (xs : List α) :
    bisect behind (xs.map f) = bisect (fun x => behind (f x)) xs := by
  rw [bisect, bisect, List.length_map, bisectBetween_map]

end Bisection

/-! ## Two lists -/

/-- The stamps and the poses of a history, as two lists. -/
@[ext] structure Columns (K : Type) where
  stamps : List K := []
  poses : List (Pose K) := []

namespace Columns

variable {K : Type}

/-- The two lists of a list of samples. -/
def ofHistory (history : List (Sample K)) : Columns K :=
  ⟨history.map Sample.stamp, history.map Sample.pose⟩

/-- The samples that the two lists spell out together. -/
def samples (c : Columns K) : List (Sample K) := List.zipWith Sample.mk c.stamps c.poses

@[simp] theorem samples_ofHistory (history : List (Sample K)) :
    (ofHistory history).samples = history := by
  simp [samples, ofHistory, List.zipWith_map_left, List.zipWith_map_right]

theorem length_stamps_ofHistory (history : List (Sample K)) :
    (ofHistory history).stamps.length = (ofHistory history).poses.length := by
  simp [ofHistory]

end Columns

variable {K : Type} [Scalar K]

/-- The place of the stamp nearest to a time; of two equally near the earlier. -/
def nearestPlace (stamps : List K) (stamp : K) : Nat :=
  match bisect (fun s => decide (s < stamp)) stamps with
  | 0 => 0
  | before + 1 =>
    match stamps[before]?, stamps[before + 1]? with
    | some early, some late => if late - stamp < stamp - early then before + 1 else before
    | _, _ => before

theorem nearestPlace_map (history : List (Sample K)) (stamp : K) :
    nearestPlace (history.map Sample.stamp) stamp = nearestIndex history stamp := by
  rw [nearestPlace, bisect_map, nearestIndex, placeBefore]
  cases bisect (fun s => decide (s.stamp < stamp)) history with
  | zero => rfl
  | succ before =>
    simp only [List.getElem?_map]
    cases history[before]? with
    | none => rfl
    | some early =>
      cases history[before + 1]? with
      | none => rfl
      | some late => rfl

namespace Columns

/-- A stamp and a pose more, at the end of either list or at the place of the stamp. -/
def add (c : Columns K) (stamp : K) (T_odom_imu : Pose K) : Columns K :=
  match c.stamps.getLast? with
  | none => ⟨c.stamps ++ [stamp], c.poses ++ [T_odom_imu]⟩
  | some last =>
    if last ≤ stamp then ⟨c.stamps ++ [stamp], c.poses ++ [T_odom_imu]⟩
    else
      let place := bisect (fun s => !decide (stamp < s)) c.stamps
      ⟨c.stamps.insertIdx place stamp, c.poses.insertIdx place T_odom_imu⟩

/-- Either list without what comes before the place of the stamp nearest to a time. -/
def release (c : Columns K) (stamp : K) : Columns K :=
  let place := nearestPlace c.stamps stamp
  ⟨c.stamps.drop place, c.poses.drop place⟩

/-- One event: a sample is added, and a correction releases samples. -/
def follow (c : Columns K) : Trajectory.Event K → Columns K
  | .sample stamp T => c.add stamp T
  | .correction stamp _ => c.release stamp

/-- The lists after events, one after the other. -/
def told : List (Trajectory.Event K) → Columns K → Columns K
  | [], c => c
  | e :: rest, c => told rest (c.follow e)

theorem add_ofHistory (history : List (Sample K)) (s : Sample K) :
    (ofHistory history).add s.stamp s.pose = ofHistory (insertSample history s) := by
  simp only [add, insertSample, ofHistory, List.getLast?_map, placeAfter]
  cases hlast : history.getLast? with
  | none =>
    rw [List.getLast?_eq_none_iff] at hlast
    simp [hlast]
  | some last =>
    simp only [Option.map_some]
    split
    · simp
    · simp only [bisect_map, List.map_insertIdx]

theorem follow_ofHistory (t : Trajectory K) (e : Trajectory.Event K) :
    (ofHistory t.history).follow e = ofHistory (t.follow Trajectory.updateAnchor e).1.history := by
  cases e with
  | sample stamp T => exact add_ofHistory t.history ⟨stamp, T⟩
  | correction stamp T =>
    simp only [follow, release, Trajectory.follow, Trajectory.updateAnchor]
    split
    · next hnone =>
      rw [Trajectory.nearest?_eq_none_iff.mp hnone]
      simp [ofHistory]
    · simp only [ofHistory, nearestPlace_map, List.map_drop]

/-- The two lists are the columns of the history, whatever was told. -/
theorem told_ofHistory (events : List (Trajectory.Event K)) (t : Trajectory K) :
    told events (ofHistory t.history) = ofHistory (t.told events).history := by
  induction events generalizing t with
  | nil => rfl
  | cons e rest ih => rw [told, follow_ofHistory, ih, Trajectory.told]

theorem told_start (events : List (Trajectory.Event K)) (tolerance : K) :
    told events {} = ofHistory ((Trajectory.start tolerance).told events).history :=
  told_ofHistory events (Trajectory.start tolerance)

end Columns

end LiveMap
