import LiveMap.Proofs.Viewer.Gates
import LiveMap.Proofs.Viewer.Interleaving
import LiveMap.Proofs.Viewer.MapRuns

/-!
# Counts of messages

A viewer and its channels agree about what was told. Frames with proper poses tell three relations
each, as long as deliveries do not turn the anchor into an improper pose: then a frame fails behind
its second relation.

## Main definitions

* `LiveRun.Anchored`: the anchors are proper.
* `LiveMove.HasProperDelivery`: the last submap of a delivery has a proper pose in the world.

## Main statements

* `LiveRun.Anchored.failures_eq_nil`: where deliveries are proper, no frame fails.
* `LiveRun.messages_counted`: counts and gates from the beginning, whatever happens.
* `LiveRun.relations_of_mirroredDelivery`: a frame that fails tells two relations.
-/

namespace LiveMap

variable {ρ : Type}

/-- The last submap of a delivery has a proper pose in the world. -/
def LiveMove.HasProperDelivery : LiveMove ℝ ρ → Prop
  | .map (.update submaps) => ∀ latest ∈ submaps.getLast?, latest.endpointPose.IsProper
  | _ => True

namespace LiveRun

variable [DecidableEq ρ] {run : LiveRun ℝ ρ} {m : LiveMove ℝ ρ} {moves : List (LiveMove ℝ ρ)}

/-! ## Frames that do not fail -/

/-- The anchors of the trajectory and of the frame at the front end are proper. -/
structure Anchored (run : LiveRun ℝ ρ) : Prop where
  trajectory : run.station.viewer.trajectory.IsProper
  anchor : ∀ w ∈ run.front, w.anchor.IsProper

namespace Anchored

omit [DecidableEq ρ] in
theorem anchor_perform (h : run.Anchored) {w : OpenFrame ℝ} (hfront : run.front = some w)
    (step : FrameStep) : ((w.runAt run.station).perform w.frame step).1.anchor.IsProper := by
  by_cases hstep : step = .sample
  · subst hstep
    exact h.trajectory.anchor
  · rw [(FrameRun.perform_read w.frame (w.runAt run.station) hstep).1]
    exact h.anchor w hfront

omit [DecidableEq ρ] in
theorem act (h : run.Anchored) (hsound : run.Sound) (hproper : m.HasProperPoses)
    (hdelivered : m.HasProperDelivery) : (run.act m).Anchored where
  trajectory := by
    refine viewer_act (P := fun v => v.trajectory.IsProper) ?_ ?_ ?_ h.trajectory
    · rintro submaps rfl latest hlatest s hs
      rw [Station.correctAnchor, Station.updateAnchor, Station.noteAll_eq]
      exact hs.updateAnchor latest.stamp (hdelivered latest hlatest)
    · intro r s hs
      rw [(Station.SameWork.of_rebuildMap r s).trajectory, Station.retain, Station.noteAll_eq]
      exact hs
    · intro _ w hw step _ hs
      rw [(FrameRun.viewer_perform w.frame (w.runAt run.station) step).2]
      split
      · exact hs.add w.frame.stamp (hsound w hw).pose
      · exact hs
  anchor := by
    intro w hw
    rcases front_act hw with ⟨f, rfl, rfl⟩ | hsame | ⟨v, step, after, hfront, -, hperform, hnext⟩
    · exact Pose.isProper_identity
    · exact h.anchor w hsame
    · have hanchor := h.anchor_perform hfront step
      rw [hperform] at hanchor
      rw [hnext]
      exact hanchor

omit [DecidableEq ρ] in
theorem failure_eq_none (h : run.Anchored) (hsound : run.Sound)
    (hextrinsic : ∀ w ∈ run.front, w.frame.extrinsic.IsProper) (m : LiveMove ℝ ρ) :
    run.failure m = none := by
  cases m with
  | proceed =>
    cases hfront : run.front with
    | none => simp [failure, hfront]
    | some w =>
      cases hleft : w.left with
      | nil => simp [failure, hfront, hleft]
      | cons step rest =>
        simp only [failure, hfront, hleft, Option.bind_some, List.head?_cons]
        by_contra hfailed
        obtain ⟨e, he⟩ := Option.ne_none_iff_exists'.mp hfailed
        obtain ⟨rfl, -⟩ := (hsound w hfront).due_of_failure (hextrinsic w hfront) hleft he
        obtain ⟨m, hm, -⟩ := (h.anchor w hfront).exists_relation
          run.station.viewer.settings.worldFrame run.station.viewer.settings.odomFrame
          w.frame.stamp
        simp [FrameRun.perform, FrameRun.publishRelation, FrameRun.relationOf, OpenFrame.runAt, hm]
          at he
  | frame | map | rescript => rfl

omit [DecidableEq ρ] in
/-- By induction on the moves: anchors stay proper, so no frame fails. -/
theorem failures_eq_nil (h : run.Anchored) (horderly : run.Orderly)
    (hproper : ∀ m ∈ moves, m.HasProperPoses)
    (hinvoked : ∀ task, .map (.invoke task) ∈ moves → task.IsPaired)
    (hdelivered : ∀ m ∈ moves, m.HasProperDelivery) : failures moves run = [] := by
  induction moves generalizing run with
  | nil => rfl
  | cons m moves ih =>
    rw [List.forall_mem_cons] at hproper hdelivered
    have hnext := h.act horderly.sound hproper.1 hdelivered.1
    have horderlyNext := horderly.act hproper.1 fun task htask =>
      hinvoked task (htask ▸ List.mem_cons_self)
    rw [failures, h.failure_eq_none horderly.sound horderly.extrinsic, ih hnext horderlyNext
      hproper.2 (fun task htask => hinvoked task (List.mem_cons_of_mem _ htask)) hdelivered.2]
    rfl

end Anchored

/-! ## From the beginning -/

variable (names : Settings ℝ) (trees : List (TreeClient ℝ Address))
  (scenes : List (SceneClient ℝ Address))

omit [DecidableEq ρ] in
theorem orderly_fresh : (fresh names trees scenes : LiveRun ℝ ρ).Orderly where
  sound := sound_of_idle rfl
  extrinsic := nofun
  clouds := nofun
  paired := nofun

omit [DecidableEq ρ] in
theorem anchored_fresh : (fresh names trees scenes : LiveRun ℝ ρ).Anchored where
  trajectory := Trajectory.isProper_start _
  anchor := nofun

omit [DecidableEq ρ] in
theorem tallied_fresh : (fresh names trees scenes : LiveRun ℝ ρ).Tallied 0 :=
  ⟨0, 0, ⟨rfl, rfl, fun _ => rfl, rfl, rfl, rfl, rfl, rfl⟩, rfl⟩

theorem tallied_play (hproper : ∀ m ∈ moves, m.HasProperPoses) :
    (LiveRun.play moves (fresh names trees scenes)).Tallied
      (failures moves (fresh names trees scenes)).length := by
  have hplayed := (tallied_fresh names trees scenes).play (orderly_fresh names trees scenes).sound
    (orderly_fresh names trees scenes).extrinsic hproper
  rwa [Nat.zero_add] at hplayed

/-- However frames, deliveries, rebuilds and listeners interleave, all counts agree, and every frame
has told its three relations, unless it failed; none fails where deliveries are proper. A gated
output is told once where it is come to while someone listens, and not at all otherwise. A rebuild
of fewer submaps than clouds are retained counts nothing. -/
theorem messages_counted (hproper : ∀ m ∈ moves, m.HasProperPoses)
    (hinvoked : ∀ task, .map (.invoke task) ∈ moves → task.IsPaired) :
    let start : LiveRun ℝ ρ := fresh names trees scenes
    let run := LiveRun.play moves start
    run.Tallied (failures moves start).length ∧
    ((∀ m ∈ moves, m.HasProperDelivery) → failures moves start = []) ∧
    (∀ m o, o ≠ .relations →
      if run.gate m = some o ∧ run.station.isHeard o = true then
        ∃ message, (run.act m).station.told o = run.station.told o ++ [message]
      else (run.act m).station.told o = run.station.told o) ∧
    ∀ r rest, run.map.taken = .duty r :: rest →
      r.submaps.length < run.station.viewer.globalMap.count →
      run.station.SameCounts (run.act (.map .perform)).station := by
  intro start run
  have horderly : run.Orderly := (orderly_fresh names trees scenes).play hproper hinvoked
  refine ⟨tallied_play names trees scenes hproper, fun hdelivered => ?_,
    fun m o ho => told_gated horderly m ho,
    fun r rest htaken hshort => counts_kept_of_short horderly htaken hshort⟩
  exact (anchored_fresh names trees scenes).failures_eq_nil (orderly_fresh names trees scenes)
    hproper hinvoked hdelivered

/-- A frame whose scan comes between two deliveries, of which the second has fewer submaps. Someone
listens to the map, and the first delivery is rebuilt. -/
noncomputable def shrunkDelivery : List (LiveMove ℝ Unit) :=
  [.map (.subscribe (0, .map) (.recorder ())), .frame FrameRun.frameAhead,
    .map (.update [MapRun.pointSubmap, MapRun.pointSubmap]), .proceed,
    .map (.update [MapRun.pointSubmap]), .map .take, .map .perform]

/-- No frame fails there, and the rebuild of the second delivery tells and counts nothing. -/
theorem messages_counted_shrunkDelivery :
    let start : LiveRun ℝ Unit := fresh .short [] []
    let run := LiveRun.play shrunkDelivery start
    (∀ m ∈ shrunkDelivery, m.HasProperPoses) ∧
    (∀ task, .map (.invoke task) ∈ shrunkDelivery → task.IsPaired) ∧
    (∀ m ∈ shrunkDelivery, m.HasProperDelivery) ∧
    run.Tallied 0 ∧ run.station.SameCounts (run.act (.map .perform)).station := by
  intro start run
  have hproper : ∀ m ∈ shrunkDelivery, m.HasProperPoses := by
    simp [shrunkDelivery, LiveMove.HasProperPoses, Pose.IsProper, FrameRun.frameAhead,
      Pose.identity, Mat3.isRotation_identity]
  have hinvoked : ∀ task, .map (.invoke task) ∈ shrunkDelivery → task.IsPaired := by
    simp [shrunkDelivery]
  have hdelivered : ∀ m ∈ shrunkDelivery, m.HasProperDelivery := by
    have hpoint : MapRun.pointSubmap.endpointPose.IsProper :=
      Pose.isProper_identity.compose Pose.isProper_identity
    simp [shrunkDelivery, LiveMove.HasProperDelivery, hpoint]
  obtain ⟨htallied, hfailures, -, hshort⟩ := messages_counted .short [] [] hproper hinvoked
  rw [hfailures hdelivered] at htallied
  exact ⟨hproper, hinvoked, hdelivered, htallied,
    hshort (.ofSubmaps [MapRun.pointSubmap]) [] rfl (by decide)⟩

end LiveRun

/-! ## Frames that fail -/

theorem Trajectory.det_anchor_updateAnchor {t : Trajectory ℝ} (h : t.IsProper)
    (hhistory : t.history ≠ []) (stamp : ℝ) (T : Pose ℝ) :
    (t.updateAnchor stamp T).anchor.rotation.det = T.rotation.det := by
  unfold updateAnchor
  split
  next hnone => exact absurd (nearest?_eq_none_iff.mp hnone) hhistory
  next s hs =>
    have hdet : s.pose.inverse.rotation.det = 1 :=
      (h.history s (List.mem_of_getElem? hs)).inverse.2
    have hcompose : (T.compose s.pose.inverse).rotation.det =
        T.rotation.det * s.pose.inverse.rotation.det := Mat3.det_mul _ _
    rw [hcompose, hdet, mul_one]

theorem failure_of_invokeAll_append {ι W ε : Type} {call : ι → W → W × Option ε} {before : List ι}
    {c : ι} {after : List ι} {w : W} (h : (invokeAll call (before ++ c :: after) w).2 = none) :
    (call c (invokeAll call before w).1).2 = none := by
  rw [invokeAll_append] at h
  cases hbefore : invokeAll call before w with
  | mk w' failure =>
    rw [hbefore] at h
    cases failure with
    | some e => cases h
    | none =>
      dsimp only at h ⊢
      unfold invokeAll at h
      split at h
      next heq => cases h
      next heq => rw [heq]

namespace Station

variable {f : EstimationFrame ℝ} {s : Station ℝ ρ}

/-- The anchor of a frame is that of the trajectory until it is told. -/
theorem anchor_before_worldToOdom (f : EstimationFrame ℝ) (s : Station ℝ ρ) :
    (invokeAll (FrameRun.perform f) (FrameStep.all.take 4) ⟨s, .identity, .identity⟩).1.anchor =
      s.viewer.trajectory.anchor := by
  have hscanned := congrArg Trajectory.anchor
    (FrameRun.viewer_perform f (⟨s, .identity, .identity⟩ : FrameRun ℝ ρ) .scan).2
  have hsampled : (((FrameRun.mk s .identity .identity).perform f .scan).1.perform f
      .sample).1.anchor = s.viewer.trajectory.anchor := hscanned
  have hkeeps : ∀ step ∈ FrameStep.behindSample.take 2, ∀ run : FrameRun ℝ ρ,
      run.anchor = s.viewer.trajectory.anchor →
        (run.perform f step).1.anchor = s.viewer.trajectory.anchor := by
    intro step hstep run hrun
    have hother : step ≠ .sample := by
      rintro rfl
      simp [FrameStep.behindSample] at hstep
    exact (FrameRun.perform_read f run hother).1.trans hrun
  exact invokeAll_preserves hkeeps hsampled

theorem det_pos_of_newFrame (h : (s.newFrame f).2 = none) :
    0 < s.viewer.trajectory.anchor.rotation.det := by
  have hsplit : (invokeAll (FrameRun.perform f) (FrameStep.all.take 4 ++
      .relation .worldToOdom :: FrameStep.all.drop 5) ⟨s, .identity, .identity⟩).2 = none := h
  have htold := failure_of_invokeAll_append hsplit
  rw [← anchor_before_worldToOdom f s]
  simp only [FrameRun.perform, FrameRun.publishRelation] at htold
  split at htold
  next m hm => exact StampedTransform.det_pos_of_ofPose hm
  next => cases htold

end Station

namespace LiveRun

theorem trajectory_update {submaps : List (Submap ℝ)} {latest : Submap ℝ}
    (hlatest : submaps.getLast? = some latest) (run : LiveRun ℝ ρ) :
    (run.act (.map (.update submaps))).station.viewer.trajectory =
      run.station.viewer.trajectory.updateAnchor latest.stamp latest.endpointPose := by
  simp only [act, MapRun.act, ViewerHost.updateSubmaps, hlatest]
  refine Host.surroundings_submit (P := fun s : Station ℝ ρ => s.viewer.trajectory =
    run.station.viewer.trajectory.updateAnchor latest.stamp latest.endpointPose)
    (fun _ _ hs => hs) ?_ _
  rw [Station.correctAnchor, Station.updateAnchor, Station.noteAll_eq]
  rfl

/-- Once there is a sample, a frame fails behind a delivery whose last submap is improper. -/
theorem failures_behind_mirrored (run : LiveRun ℝ ρ) (hidle : run.front = none)
    (hproper : run.station.viewer.trajectory.IsProper)
    (hhistory : run.station.viewer.trajectory.history ≠ []) {submaps : List (Submap ℝ)}
    {latest : Submap ℝ} (hlatest : submaps.getLast? = some latest)
    (hmirrored : latest.endpointPose.rotation.det ≤ 0) (f : EstimationFrame ℝ) :
    failures (.map (.update submaps) :: wholeFrame f) run ≠ [] := by
  have hidle' : (run.act (.map (.update submaps))).front = none := hidle
  rw [failures, (play_newFrame f hidle').2]
  intro hnone
  have hdone : ((run.act (.map (.update submaps))).station.newFrame f).2 = none := by
    simpa [failure] using hnone
  have hdet := Station.det_pos_of_newFrame hdone
  rw [trajectory_update hlatest, Trajectory.det_anchor_updateAnchor hproper hhistory] at hdet
  exact absurd hdet (not_lt.mpr hmirrored)

/-- A submap seen in a mirror. -/
noncomputable def mirroredSubmap : Submap ℝ :=
  { MapRun.pointSubmap with origin := ⟨⟨⟨1, 0, 0⟩, ⟨0, 1, 0⟩, ⟨0, 0, -1⟩⟩, .zero⟩ }

/-- A frame, a delivery of a submap seen in a mirror, another frame, and a delivery of a proper
submap. -/
noncomputable def mirroredDelivery : List (LiveMove ℝ Empty) :=
  wholeFrame FrameRun.frameAhead ++ ((.map (.update [mirroredSubmap]) ::
    wholeFrame FrameRun.frameAhead) ++ [.map (.update [MapRun.pointSubmap])])

theorem det_mirroredSubmap : mirroredSubmap.endpointPose.rotation.det = -1 := by
  have hdet : mirroredSubmap.endpointPose.rotation.det =
      mirroredSubmap.origin.rotation.det * (Pose.identity : Pose ℝ).rotation.det :=
    Mat3.det_mul _ _
  rw [hdet, Pose.isProper_identity.2]
  simp [mirroredSubmap, Mat3.det, Mat3.cofactors, Vec3.dot]

theorem proper_mirroredDelivery : ∀ m ∈ mirroredDelivery, m.HasProperPoses := by
  simp [mirroredDelivery, wholeFrame, LiveMove.HasProperPoses, Pose.IsProper, FrameRun.frameAhead,
    Pose.identity, Mat3.isRotation_identity]

theorem front_mirroredDelivery :
    (LiveRun.play mirroredDelivery (fresh .short [] [])).front = none := by
  have hframe {run : LiveRun ℝ Empty} (hidle : run.front = none) :
      (LiveRun.play (wholeFrame FrameRun.frameAhead) run).front = none := by
    rw [(play_newFrame FrameRun.frameAhead hidle).1]
    exact hidle
  have hupdate (submaps : List (Submap ℝ)) {run : LiveRun ℝ Empty} (hidle : run.front = none) :
      (run.act (.map (.update submaps))).front = none := hidle
  rw [mirroredDelivery, LiveRun.play_append, LiveRun.play_append, LiveRun.play, LiveRun.play,
    LiveRun.play]
  exact hupdate _ (hframe (hupdate _ (hframe rfl)))

theorem failures_mirroredDelivery : failures mirroredDelivery (fresh .short [] []) ≠ [] := by
  let start : LiveRun ℝ Empty := fresh .short [] []
  have htrajectory := (Station.viewer_newFrame FrameRun.frameAhead start.station).1
  have hproper : (start.station.newFrame FrameRun.frameAhead).1.viewer.trajectory.IsProper := by
    rw [htrajectory]
    exact (Trajectory.isProper_start _).add _ Mat3.isRotation_identity
  have hhistory :
      (start.station.newFrame FrameRun.frameAhead).1.viewer.trajectory.history ≠ [] := by
    rw [htrajectory, ← List.length_pos_iff, Trajectory.add, length_insertSample]
    exact Nat.succ_pos _
  have hlatest : [mirroredSubmap].getLast? = some mirroredSubmap := rfl
  have hmirrored : mirroredSubmap.endpointPose.rotation.det ≤ 0 := by norm_num [det_mirroredSubmap]
  have hbehind := failures_behind_mirrored
    (start.setStation (start.station.newFrame FrameRun.frameAhead).1) rfl hproper hhistory hlatest
    hmirrored FrameRun.frameAhead
  rw [mirroredDelivery, failures_append, failures_append, (play_newFrame _ rfl).1]
  simp [hbehind, start]

/-- Behind an improper delivery a frame fails, and the relations fall short of three for each
frame. -/
theorem relations_of_mirroredDelivery :
    (∀ m ∈ mirroredDelivery, m.HasProperPoses) ∧
    (∀ task, .map (.invoke task) ∈ mirroredDelivery → task.IsPaired) ∧
    (LiveRun.play mirroredDelivery (fresh .short [] [])).front = none ∧
    (LiveRun.play mirroredDelivery (fresh .short [] [])).station.published .relations ≠
      3 * (LiveRun.play mirroredDelivery (fresh .short [] [])).station.viewer.stats.frames := by
  refine ⟨proper_mirroredDelivery, by simp [mirroredDelivery, wholeFrame], front_mirroredDelivery,
    ?_⟩
  obtain ⟨frames, relations, hstation, hrelations⟩ :=
    tallied_play .short [] [] proper_mirroredDelivery
  have hfailed := List.length_pos_iff.mpr failures_mirroredDelivery
  rw [due, front_mirroredDelivery, Option.map_none, Option.getD_none] at hrelations
  rw [hstation.relations, hstation.frames]
  omega

end LiveRun

end LiveMap
