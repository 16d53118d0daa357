import LiveMap.Proofs.Geometry.Rotation
import LiveMap.Proofs.Trajectory.Release

/-!
# Matched samples

A correction is matched with the sample nearest to it in time, which two bisections and a comparison
of two neighbours find because the samples are in order. The samples before it are released, and
what is left still begins with the sample that the same correction is matched with.

## Main definitions

* `Nearest`: the sample nearest to a time, and the earliest of those.
* `Trajectory.told`: a trajectory after what it was told.

## Main statements

* `SplitAt.exists_match`: the samples from the nearest on are what is left.
* `Trajectory.inOrder_told`: samples stay in order, whatever the order that they come in.
* `Trajectory.updateAnchor_matched`: what a correction does.
-/

namespace LiveMap

/-- No sample is nearer to the time, and none that is as near is earlier. -/
structure Nearest (history : List (Sample ℝ)) (stamp : ℝ) (m : Sample ℝ) : Prop where
  mem : m ∈ history
  closest : ∀ x ∈ history, |m.stamp - stamp| ≤ |x.stamp - stamp|
  earliest : ∀ x ∈ history, |x.stamp - stamp| = |m.stamp - stamp| → m.stamp ≤ x.stamp

/-- A sample of the very time is nearest to it. -/
theorem Nearest.stamp_eq {history : List (Sample ℝ)} {stamp : ℝ} {m : Sample ℝ}
    (h : Nearest history stamp m) (hexact : ∃ x ∈ history, x.stamp = stamp) : m.stamp = stamp := by
  obtain ⟨x, hx, rfl⟩ := hexact
  have hclosest := h.closest x hx
  rw [sub_self, abs_zero] at hclosest
  exact sub_eq_zero.mp (abs_nonpos_iff.mp hclosest)

namespace SplitAt

variable {stamp : ℝ} {early late rest : List (Sample ℝ)} {m : Sample ℝ}

/-- The distance of an earlier sample. -/
theorem abs_early (h : SplitAt stamp early late) {a : Sample ℝ} (ha : a ∈ early) :
    |a.stamp - stamp| = stamp - a.stamp := by
  rw [abs_sub_comm]
  exact abs_of_pos (sub_pos.mpr (h.early a ha))

/-- The distance of a sample that is not earlier. -/
theorem abs_late (h : SplitAt stamp early late) {b : Sample ℝ} (hb : b ∈ late) :
    |b.stamp - stamp| = b.stamp - stamp :=
  abs_of_nonneg (sub_nonneg.mpr (h.late b hb))

/-- The first sample from the time on is nearest if all before the time are farther. -/
theorem nearest_first (h : SplitAt stamp early (m :: rest))
    (hfar : ∀ a ∈ early, m.stamp - stamp < stamp - a.stamp) :
    Nearest (early ++ m :: rest) stamp m := by
  have hm := h.abs_late List.mem_cons_self
  refine ⟨by simp, fun x hx => ?closest, fun x hx heq => ?earliest⟩
  case closest =>
    rcases List.mem_append.mp hx with ha | hb
    · rw [hm, h.abs_early ha]
      exact (hfar x ha).le
    · rw [hm, h.abs_late hb]
      exact sub_le_sub_right (h.inOrder_late.first_le hb) stamp
  case earliest =>
    rcases List.mem_append.mp hx with ha | hb
    · rw [hm, h.abs_early ha] at heq
      exact absurd heq (hfar x ha).ne'
    · exact h.inOrder_late.first_le hb

/-- The last sample before the time is nearest if none from the time on is nearer. -/
theorem nearest_last (h : SplitAt stamp early late) (hlast : early.getLast? = some m)
    (hnear : nearer stamp (some m) late.head? = some m) : Nearest (early ++ late) stamp m := by
  have hmem : m ∈ early := List.mem_of_getLast? hlast
  have hm := h.abs_early hmem
  have hlate : ∀ b ∈ late, stamp - m.stamp ≤ b.stamp - stamp := by
    intro b hb
    obtain ⟨first, rest, rfl⟩ := List.exists_cons_of_ne_nil (List.ne_nil_of_mem hb)
    have hfirst : ¬ first.stamp - stamp < stamp - m.stamp := by
      intro hlt
      rw [List.head?_cons, nearer, if_pos hlt, Option.some.injEq] at hnear
      exact absurd (h.late first List.mem_cons_self) (not_le.mpr (hnear ▸ h.early m hmem))
    exact (not_lt.mp hfirst).trans (sub_le_sub_right (h.inOrder_late.first_le hb) stamp)
  refine ⟨List.mem_append_left _ hmem, fun x hx => ?closest, fun x hx heq => ?earliest⟩
  case closest =>
    rcases List.mem_append.mp hx with ha | hb
    · rw [hm, h.abs_early ha]
      exact sub_le_sub_left (h.inOrder_early.le_last hlast ha) stamp
    · rw [hm, h.abs_late hb]
      exact hlate x hb
  case earliest =>
    rcases List.mem_append.mp hx with ha | hb
    · rw [hm, h.abs_early ha] at heq
      linarith
    · exact ((h.early m hmem).trans_le (h.late x hb)).le

/-- What is left begins with the matched sample, and it is left again. -/
theorem exists_match (h : SplitAt stamp early late) (hne : early ++ late ≠ []) :
    ∃ m rest, (early ++ late).drop (nearestIndex (early ++ late) stamp) = m :: rest ∧
      Nearest (early ++ late) stamp m ∧
      (m :: rest).drop (nearestIndex (m :: rest) stamp) = m :: rest := by
  rcases h.nearest.2 with ⟨hfirst, hdrop⟩ | ⟨last, hlast, hchosen, hdrop⟩
  · have hfar := h.far_of_nearer hfirst
    obtain ⟨m, rest, rfl⟩ : ∃ m rest, late = m :: rest := by
      refine List.exists_cons_of_ne_nil fun hnil => ?_
      rcases hfar with rfl | ⟨_, hhead, -⟩
      · exact hne hnil
      · rw [hnil] at hhead
        cases hhead
    refine ⟨m, rest, hdrop, h.nearest_first fun a ha => ?_, ?_⟩
    · rcases hfar with rfl | ⟨first, hhead, hfar⟩
      · cases ha
      · obtain rfl : m = first := Option.some.inj hhead
        exact hfar a ha
    · have halone : SplitAt stamp [] (m :: rest) := ⟨h.inOrder_late, by simp, h.late⟩
      rcases halone.nearest.2 with ⟨-, hagain⟩ | ⟨_, hnone, -⟩
      · exact hagain
      · cases hnone
  · rw [hlast] at hchosen
    refine ⟨last, late, hdrop, h.nearest_last hlast hchosen, ?_⟩
    obtain ⟨before, rfl⟩ := List.getLast?_eq_some_iff.mp hlast
    rcases h.suffix.nearest.2 with ⟨hlater, -⟩ | ⟨last', hend, -, hagain⟩
    · -- The first sample from the time on would be the last before it.
      have hhead : late.head? = some last := hlater.symm.trans hchosen
      exact absurd (h.late last (List.mem_of_head? hhead)) (not_le.mpr (h.early last (by simp)))
    · obtain rfl : last = last' := Option.some.inj hend
      exact hagain

end SplitAt

/-! ## Trajectories -/

namespace Trajectory

/-- The trajectory after events, one after the other. -/
def told {K : Type} [Scalar K] : List (Event K) → Trajectory K → Trajectory K
  | [], t => t
  | e :: rest, t => told rest (t.follow updateAnchor e).1

variable {t : Trajectory ℝ} {stamp : ℝ} {m : Sample ℝ}

theorem updateAnchor_of_nearest? (h : t.nearest? stamp = some m) (T : Pose ℝ) :
    t.updateAnchor stamp T = { t with
      anchor := T.compose m.pose.inverse
      history := t.history.drop (nearestIndex t.history stamp) } := by
  rw [updateAnchor, h]

theorem tolerance_follow (t : Trajectory ℝ) (e : Event ℝ) :
    (t.follow updateAnchor e).1.tolerance = t.tolerance := by
  cases e with
  | sample => rfl
  | correction stamp T =>
    simp only [follow, updateAnchor]
    split <;> rfl

/-- A new sample finds its place among those in order, and a correction takes away the first. -/
theorem inOrder_follow (h : InOrder t.history) (e : Event ℝ) :
    InOrder (t.follow updateAnchor e).1.history := by
  cases e with
  | sample => exact h.insertSample _
  | correction stamp T =>
    simp only [follow, updateAnchor]
    split
    · exact h
    · exact List.Pairwise.drop h

/-- Samples stay in order, whatever the order that they come in. -/
theorem inOrder_told (h : InOrder t.history) (events : List (Event ℝ)) :
    InOrder (t.told events).history := by
  induction events generalizing t with
  | nil => exact h
  | cons e rest ih => exact ih (inOrder_follow h e)

theorem tolerance_told (t : Trajectory ℝ) (events : List (Event ℝ)) :
    (t.told events).tolerance = t.tolerance := by
  induction events generalizing t with
  | nil => rfl
  | cons e rest ih => exact (ih _).trans (tolerance_follow t e)

/-- Whatever samples and corrections a trajectory was told before, and in whatever order, a
correction is matched with the sample nearest to its time, the earlier of two that are equally near
and one of its very time if there is one. It releases the samples before that one, maps it to the
pose that it was told and moves every other sample along with it. There is something to say exactly
if the sample is farther than the tolerance, and the same correction once more changes nothing. -/
theorem updateAnchor_matched {tolerance : ℝ} {events : List (Event ℝ)} (stamp : ℝ) (T : Pose ℝ)
    (htold : (start tolerance).told events = t) (hsamples : t.history ≠ []) :
    ∃ m before rest, t.nearest? stamp = some m ∧ t.history = before ++ m :: rest ∧
      Nearest t.history stamp m ∧
      ((∃ x ∈ t.history, x.stamp = stamp) → m.stamp = stamp) ∧
      (t.updateAnchor stamp T).history = m :: rest ∧
      (m.pose.rotation.IsOrthogonal → (t.updateAnchor stamp T).toWorld m.pose = T) ∧
      (∀ x ∈ m :: rest, (t.updateAnchor stamp T).toWorld x.pose =
        T.compose (m.pose.inverse.compose x.pose)) ∧
      t.anchorNotices stamp = (if tolerance < |m.stamp - stamp| then
        [.anchorFarFromOdometry stamp |m.stamp - stamp|] else []) ∧
      (t.updateAnchor stamp T).updateAnchor stamp T = t.updateAnchor stamp T := by
  have hempty : InOrder (start tolerance).history := List.Pairwise.nil
  have horder : InOrder t.history := htold ▸ inOrder_told hempty events
  have htolerance : t.tolerance = tolerance := htold ▸ tolerance_told (start tolerance) events
  obtain ⟨m, rest, hdrop, hnearest, hagain⟩ :
      ∃ m rest, t.history.drop (nearestIndex t.history stamp) = m :: rest ∧
        Nearest t.history stamp m ∧
        (m :: rest).drop (nearestIndex (m :: rest) stamp) = m :: rest := by
    obtain ⟨early, late, heq, hsplit⟩ := horder.exists_splitAt stamp
    rw [heq] at hsamples ⊢
    exact hsplit.exists_match hsamples
  have hmatched (r : Trajectory ℝ)
      (hr : r.history.drop (nearestIndex r.history stamp) = m :: rest) :
      r.nearest? stamp = some m := by
    rw [nearest?, ← List.head?_drop, hr, List.head?_cons]
  have hupdate : t.updateAnchor stamp T =
      { t with anchor := T.compose m.pose.inverse, history := m :: rest } := by
    rw [updateAnchor_of_nearest? (hmatched t hdrop), hdrop]
  have hworld (P : Pose ℝ) : (t.updateAnchor stamp T).toWorld P =
      T.compose (m.pose.inverse.compose P) := by
    rw [hupdate, toWorld, Pose.compose_assoc]
  refine ⟨m, t.history.take (nearestIndex t.history stamp), rest, hmatched t hdrop, ?_, hnearest,
    hnearest.stamp_eq, ?_, ?_, fun x _ => hworld x.pose, ?_, ?_⟩
  · rw [← hdrop, List.take_append_drop]
  · rw [hupdate]
  · intro hrotation
    rw [hworld, Pose.inverse_compose_of_isOrthogonal hrotation, Pose.compose_identity]
  · simp only [anchorNotices, hmatched t hdrop, htolerance, Scalar.abs_real]
  · rw [hupdate, updateAnchor_of_nearest? (hmatched _ hagain), hagain]

/-- A correction that is as near to one sample as to another, and behind it a sample that comes too
late for it, one whose time is taken and one that comes late. -/
noncomputable def scattered : List (Event ℝ) :=
  [.sample (-1) .identity, .sample 1 .identity, .correction 0 .identity,
    .sample (-1 - 1) .identity, .sample 1 .identity, .sample 0 .identity]

theorem updateAnchor_scattered :
    ((start 1).told scattered).history ≠ [] ∧
    ∃ m, ((start 1).told scattered).nearest? 0 = some m ∧ m.stamp = 0 ∧
      (((start 1).told scattered).updateAnchor 0 .identity).updateAnchor 0 .identity =
        ((start 1).told scattered).updateAnchor 0 .identity := by
  have hempty : InOrder (start (1 : ℝ)).history := List.Pairwise.nil
  have hrecorded : ⟨0, .identity⟩ ∈ ((start 1).told scattered).history := by
    obtain ⟨before, behind, -, -, -, hinsert⟩ :=
      (inOrder_told hempty scattered.dropLast).exists_insert ⟨0, .identity⟩
    have hhistory : ((start 1).told scattered).history = before ++ ⟨0, .identity⟩ :: behind :=
      hinsert
    rw [hhistory]
    exact List.mem_append_right _ List.mem_cons_self
  have hsamples := List.ne_nil_of_mem hrecorded
  obtain ⟨m, _, _, hmatched, -, -, hexact, -, -, -, -, hagain⟩ :=
    updateAnchor_matched 0 .identity rfl hsamples
  exact ⟨hsamples, m, hmatched, hexact ⟨_, hrecorded, rfl⟩, hagain⟩

end Trajectory

end LiveMap
