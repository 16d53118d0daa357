import LiveMap.Proofs.GlobalMap.Retention

/-!
# Maps after many deliveries

Lists of submaps of any lengths are delivered to a map, which is rebuilt in between, also with too
few poses. What it retains is told by the lists alone: lists may shrink and grow again, and every
cloud still stands at the place of its submap.

## Main definitions

* `GlobalMap.Move`, `GlobalMap.Answer`: what is done with a map, and what comes of it.
* `GlobalMap.after`, `GlobalMap.answers`: a run of moves.
* `GlobalMap.firstAt`: the submap that a place of the map belongs to, by the lists delivered.
* `GlobalMap.Follows`: what a map owes to the lists delivered.

## Main statements

* `GlobalMap.Follows.extend`, `GlobalMap.follows_after`: one delivery, and a run.
* `GlobalMap.retained_of_deliveries`: what becomes of a map.
-/

namespace LiveMap.GlobalMap

variable {K : Type}

/-- What is done with a map. -/
inductive Move (K : Type) where
  | extend (submaps : List (Submap K))
  | merge (poses : List (Pose K))

/-- What comes of it: the number of new clouds, the whole map, or why there is none. -/
inductive Answer (K : Type) where
  | grown (clouds : Nat)
  | merged (points : List (Vec3 K))
  | refused (why : MergeError)

def Move.submaps? : Move K → Option (List (Submap K))
  | extend submaps => some submaps
  | merge _ => none

def Answer.isMerged : Answer K → Bool
  | merged _ => true
  | grown _ | refused _ => false

/-- The lists that were delivered, in order. -/
def deliveries (moves : List (Move K)) : List (List (Submap K)) := moves.filterMap Move.submaps?

/-- The largest number of submaps that was delivered at once. -/
def longest (lists : List (List (Submap K))) : Nat := (lists.map List.length).foldl max 0

/-- The submap at a place of the first list that is long enough. -/
def firstAt (lists : List (List (Submap K))) (place : Nat) : Option (Submap K) :=
  (lists.find? fun submaps => place < submaps.length).bind fun submaps => submaps[place]?

/-! ## One delivery -/

theorem deliveries_append (moves more : List (Move K)) :
    deliveries (moves ++ more) = deliveries moves ++ deliveries more := List.filterMap_append

theorem longest_concat (lists : List (List (Submap K))) (submaps : List (Submap K)) :
    longest (lists ++ [submaps]) = max (longest lists) submaps.length := by
  rw [longest, List.map_append, List.foldl_append]
  rfl

/-- A later list says something about the places only that no list before it had. -/
theorem firstAt_concat (lists : List (List (Submap K))) (submaps : List (Submap K)) (place : Nat) :
    firstAt (lists ++ [submaps]) place = (firstAt lists place).or submaps[place]? := by
  rw [firstAt, firstAt, List.find?_append]
  cases hfound : lists.find? fun submaps => place < submaps.length with
  | none =>
    by_cases hplace : place < submaps.length
    · simp [hplace]
    · simp [hplace]
  | some first =>
    have hplace : place < first.length := by simpa using List.find?_some hfound
    simp [List.getElem?_eq_getElem hplace]

/-- What a map owes to the lists that were delivered. -/
structure Follows (m : GlobalMap K) (lists : List (List (Submap K))) : Prop where
  clouds : ∀ place, m.clouds[place]? = (firstAt lists place).map Submap.cloud
  count : m.count = longest lists
  totalPoints : m.totalPoints = (m.clouds.map NumArray.length).sum

theorem follows_fresh : Follows ({} : GlobalMap K) [] := ⟨fun _ => rfl, rfl, rfl⟩

theorem Follows.extend {m : GlobalMap K} {lists : List (List (Submap K))} (h : m.Follows lists)
    (submaps : List (Submap K)) : (m.extend submaps).Follows (lists ++ [submaps]) where
  clouds place := by
    rw [clouds_extend, firstAt_concat]
    by_cases hplace : place < m.clouds.length
    · have hold := h.clouds place
      rw [List.getElem?_eq_getElem hplace] at hold
      rw [List.getElem?_append_left hplace, List.getElem?_eq_getElem hplace, Option.map_or, ← hold,
        Option.some_or]
    · have hnone : firstAt lists place = none := by
        have hold := h.clouds place
        rw [List.getElem?_eq_none (Nat.le_of_not_lt hplace)] at hold
        exact Option.map_eq_none_iff.mp hold.symm
      have hback : m.count + (place - m.clouds.length) = place := by
        rw [GlobalMap.count]
        omega
      rw [List.getElem?_append_right (Nat.le_of_not_lt hplace), List.getElem?_map, unseen,
        List.getElem?_drop, hback, hnone, Option.none_or]
      rfl
  count := by rw [count_extend, h.count, longest_concat]
  totalPoints := by
    rw [totalPoints_extend, clouds_extend, List.map_append, List.sum_append, h.totalPoints,
      List.map_map]
    rfl

theorem clouds_isPrefix_extend (m : GlobalMap K) (submaps : List (Submap K)) :
    m.clouds <+: (m.extend submaps).clouds := by
  rw [clouds_extend]
  exact List.prefix_append _ _

/-! ## Moves -/

section Moves

variable [Scalar K]

/-- A move. A rebuild that fails leaves the map as it is. -/
def act (m : GlobalMap K) : Move K → GlobalMap K × Answer K
  | .extend submaps =>
    let (grown, clouds) := m.deliver submaps
    (grown, .grown clouds)
  | .merge poses =>
    match m.merge poses with
    | .ok (points, merged) => (merged, .merged points)
    | .error why => (m, .refused why)

/-- A map after moves. -/
def after (m : GlobalMap K) (moves : List (Move K)) : GlobalMap K :=
  moves.foldl (fun m move => (m.act move).1) m

/-- What comes of moves, one after the other. -/
def answers (m : GlobalMap K) : List (Move K) → List (Answer K)
  | [] => []
  | move :: rest => (m.act move).2 :: answers (m.act move).1 rest

/-- A rebuild is at most counted. -/
theorem act_merge_cases (m : GlobalMap K) (poses : List (Pose K)) :
    (∃ points, m.assemble poses = .ok points ∧
      m.act (.merge poses) = ({ m with merges := m.merges + 1 }, .merged points)) ∨
    ∃ why, m.assemble poses = .error why ∧ m.act (.merge poses) = (m, .refused why) := by
  rw [act, merge_eq]
  cases hassemble : m.assemble poses with
  | ok points => exact .inl ⟨points, rfl, rfl⟩
  | error why => exact .inr ⟨why, rfl, rfl⟩

theorem exists_act_merge (m : GlobalMap K) (poses : List (Pose K)) :
    ∃ merges, (m.act (.merge poses)).1 = { m with merges } := by
  obtain ⟨_, -, hact⟩ | ⟨_, -, hact⟩ := m.act_merge_cases poses
  · exact ⟨m.merges + 1, congrArg Prod.fst hact⟩
  · exact ⟨m.merges, congrArg Prod.fst hact⟩

/-- What comes of a rebuild depends on the clouds and the poses only. -/
theorem answer_merge_congr {m m' : GlobalMap K} (hclouds : m'.clouds = m.clouds)
    (poses : List (Pose K)) : (m'.act (.merge poses)).2 = (m.act (.merge poses)).2 := by
  rw [act, act, merge_eq, merge_eq, assemble_congr hclouds]
  cases m.assemble poses <;> rfl

theorem clouds_isPrefix_act (m : GlobalMap K) (move : Move K) :
    m.clouds <+: (m.act move).1.clouds := by
  cases move with
  | extend submaps => exact m.clouds_isPrefix_extend submaps
  | merge poses =>
    obtain ⟨_, hact⟩ := m.exists_act_merge poses
    have hclouds : (m.act (.merge poses)).1.clouds = m.clouds := by rw [hact]
    exact hclouds ▸ List.prefix_rfl

theorem merges_act (m : GlobalMap K) (move : Move K) :
    (m.act move).1.merges = m.merges + if (m.act move).2.isMerged then 1 else 0 := by
  cases move with
  | extend submaps => exact m.merges_extend submaps
  | merge poses =>
    obtain ⟨_, -, hact⟩ | ⟨_, -, hact⟩ := m.act_merge_cases poses
    · rw [hact]
      rfl
    · rw [hact]
      rfl

theorem Follows.act {m : GlobalMap K} {lists : List (List (Submap K))} (h : m.Follows lists)
    (move : Move K) : (m.act move).1.Follows (lists ++ deliveries [move]) := by
  cases move with
  | extend submaps => exact h.extend submaps
  | merge poses =>
    have hnone : lists ++ deliveries [.merge poses] = lists := List.append_nil _
    obtain ⟨_, hact⟩ := m.exists_act_merge poses
    rw [hnone, hact]
    exact ⟨h.clouds, h.count, h.totalPoints⟩

theorem OfPoints.act {m : GlobalMap K} (h : m.OfPoints) (move : Move K) :
    (m.act move).1.OfPoints := by
  cases move with
  | extend submaps => exact h.extend submaps
  | merge poses =>
    obtain ⟨_, hact⟩ := m.exists_act_merge poses
    rw [hact]
    exact h

/-! ## Runs -/

theorem clouds_isPrefix_after (m : GlobalMap K) (moves : List (Move K)) :
    m.clouds <+: (m.after moves).clouds := by
  induction moves generalizing m with
  | nil => exact List.prefix_rfl
  | cons move rest ih => exact (m.clouds_isPrefix_act move).trans (ih _)

theorem merges_after (m : GlobalMap K) (moves : List (Move K)) :
    (m.after moves).merges = m.merges + (m.answers moves).countP Answer.isMerged := by
  induction moves generalizing m with
  | nil => rfl
  | cons move rest ih =>
    have hrest := ih (m.act move).1
    rw [after, List.foldl_cons, ← after, hrest, merges_act, answers, List.countP_cons]
    omega

theorem Follows.after {m : GlobalMap K} {lists : List (List (Submap K))} (h : m.Follows lists)
    (moves : List (Move K)) : (m.after moves).Follows (lists ++ deliveries moves) := by
  induction moves generalizing m lists with
  | nil => exact (List.append_nil lists).symm ▸ h
  | cons move rest ih =>
    have hrest := ih (h.act move)
    rw [List.append_assoc, ← deliveries_append] at hrest
    exact hrest

theorem OfPoints.after {m : GlobalMap K} (h : m.OfPoints) (moves : List (Move K)) :
    (m.after moves).OfPoints := by
  induction moves generalizing m with
  | nil => exact h
  | cons move rest ih => exact ih (h.act move)

theorem follows_after (moves : List (Move K)) :
    (after {} moves).Follows (deliveries moves) := follows_fresh.after moves

/-- A map that has not grown has the same clouds. -/
theorem clouds_after_of_count {m : GlobalMap K} {moves : List (Move K)}
    (h : (m.after moves).count = m.count) : (m.after moves).clouds = m.clouds :=
  ((m.clouds_isPrefix_after moves).eq_of_length h.symm).symm

/-- Whatever lists are delivered, and however often the map is rebuilt, the clouds only grow at the
end, each is that of its place in the first list that was long enough, and there are as many as the
longest list had submaps; a delivery answers by how much the map has grown, and all points are
counted. A rebuild is refused exactly for want of poses, which changes nothing, and is counted
otherwise; while the map does not grow, it comes to the same. -/
theorem retained_of_deliveries (moves more : List (Move K)) (submaps : List (Submap K))
    (poses : List (Pose K)) :
    let m : GlobalMap K := after {} moves
    m.clouds <+: (m.after more).clouds ∧
    (∀ place, m.clouds[place]? = (firstAt (deliveries moves) place).map Submap.cloud) ∧
    m.count = longest (deliveries moves) ∧
    m.totalPoints = (m.clouds.map NumArray.length).sum ∧
    m.merges = (answers {} moves).countP Answer.isMerged ∧
    (∃ clouds, (m.act (.extend submaps)).2 = .grown clouds ∧
      (m.act (.extend submaps)).1.count = m.count + clouds) ∧
    (poses.length < m.count →
      m.act (.merge poses) = (m, .refused (.tooFewPoses poses.length m.count))) ∧
    (m.count ≤ poses.length → ∃ points,
      m.act (.merge poses) = ({ m with merges := m.merges + 1 }, .merged points)) ∧
    ((m.after more).count = m.count →
      ((m.after more).act (.merge poses)).2 = (m.act (.merge poses)).2) := by
  intro m
  have hfollows : m.Follows (deliveries moves) := follows_after moves
  have hpoints : m.OfPoints := OfPoints.after (m := {}) nofun moves
  have hmerges : m.merges = 0 + (answers {} moves).countP Answer.isMerged := merges_after {} moves
  refine ⟨m.clouds_isPrefix_after more, hfollows.clouds, hfollows.count, hfollows.totalPoints,
    hmerges.trans (Nat.zero_add _), ⟨_, rfl, m.count_deliver submaps⟩, ?_, ?_, ?_⟩
  · intro hshort
    have hassemble : m.assemble poses = .error (.tooFewPoses poses.length m.count) := by
      rw [assemble, if_pos hshort]
    rw [act, merge_eq, hassemble]
    rfl
  · intro henough
    obtain ⟨points, hassemble⟩ := (hpoints.exists_assemble_iff poses).mpr henough
    rw [act, merge_eq, hassemble]
    exact ⟨points, rfl⟩
  · intro hsame
    exact answer_merge_congr (clouds_after_of_count hsame) poses

end Moves

/-- A submap of one point. -/
def singlePoint (id : Int) (x : Float) : Submap Float where
  id
  origin := .identity
  endpoint := .identity
  stamp := 0
  points := [⟨x, 0, 0⟩]

/-- A list that is shorter than the one before it, a rebuild with too few poses, and a longer list,
whose first points have moved meanwhile. -/
def shrunkAndGrown : List (Move Float) :=
  [.extend [singlePoint 0 1, singlePoint 1 2], .extend [singlePoint 0 3], .merge [.identity],
    .extend [singlePoint 0 4, singlePoint 1 5, singlePoint 2 6]]

/-- The middle cloud is that of the first list; between two rebuilds that come to the same, a list
shrinks and a rebuild is refused. -/
theorem retained_shrunkAndGrown :
    let m := after {} shrunkAndGrown
    let poses : List (Pose Float) := [.identity, .identity, .identity]
    m.clouds[1]? = some (singlePoint 1 2).cloud ∧ m.clouds[2]? = some (singlePoint 2 6).cloud ∧
    m.count = 3 ∧ m.merges = 0 ∧
    m.act (.merge [.identity]) = (m, .refused (.tooFewPoses 1 3)) ∧
    ∃ points, m.act (.merge poses) = ({ m with merges := m.merges + 1 }, .merged points) ∧
      ((m.after [.merge poses, .extend [singlePoint 0 7], .merge []]).act (.merge poses)).2 =
        .merged points := by
  intro m poses
  obtain ⟨-, hclouds, hcount, -, hmerges, -, -, henough, hsame⟩ := retained_of_deliveries
    shrunkAndGrown [.merge poses, .extend [singlePoint 0 7], .merge []] [] poses
  obtain ⟨-, -, -, -, -, -, hshort, -⟩ := retained_of_deliveries shrunkAndGrown [] [] [.identity]
  have hthree : m.count = 3 := hcount
  obtain ⟨points, hmerged⟩ := henough (by rw [hthree]; decide)
  refine ⟨hclouds 1, hclouds 2, hthree, hmerges, ?_, points, hmerged, ?_⟩
  · exact (hshort (by rw [hthree]; decide)).trans (by rw [hthree]; rfl)
  · exact (hsame rfl).trans (congrArg Prod.snd hmerged)

end LiveMap.GlobalMap
