import LiveMap.Proofs.Viewer.FrameSteps
import LiveMap.Proofs.Viewer.LiveRuns

/-!
# Frames under way

A correction by an improper pose makes the anchor improper, and then the frame ends where its anchor
should be told. The steps that are withheld where nobody listens come later: they do not fail, so
nobody can tell by them who listens.

## Main definitions

* `OpenFrame.Sound`: what holds of a frame between any two of its steps.
* `LiveMove.HasProperFrame`: the pose of a frame that begins is proper.

## Main statements

* `Mat3.exists_toQuaternion_iff`: which matrices have a quaternion.
* `FrameRun.perform_cases`: what a step can do.
* `Station.viewer_newFrame`: what a viewer knows of a frame, even of one that fails.
* `Station.newFrame_succeeds`: which frames do not fail.
* `OpenFrame.Sound.exists_perform`: only relations fail.
* `LiveRun.sound_act`: frames stay sound.
-/

namespace LiveMap

/-! ## Poses that can be told -/

theorem Mat3.isFinite_real (m : Mat3 ℝ) : m.IsFinite := by
  simp [IsFinite, Vec3.IsFinite, Scalar.IsFinite, Scalar.IsNumber]

/-- In exact arithmetic only the handedness matters. -/
theorem Mat3.exists_toQuaternion_iff (m : Mat3 ℝ) : (∃ q, m.toQuaternion = .ok q) ↔ 0 < m.det := by
  unfold toQuaternion
  constructor
  · rintro ⟨q, hq⟩
    by_contra hdet
    rw [if_pos (not_lt.mp hdet)] at hq
    cases hq
  · intro hdet
    rw [if_neg (not_le.mpr hdet), if_pos m.isFinite_real]
    split <;> exact ⟨_, rfl⟩

theorem StampedTransform.det_pos_of_ofPose {parent child : String} {stamp : ℝ} {T : Pose ℝ}
    {m : StampedTransform ℝ} (h : ofPose parent child stamp T = .ok m) : 0 < T.rotation.det := by
  rw [← Mat3.exists_toQuaternion_iff]
  cases hq : T.rotation.toQuaternion with
  | ok q => exact ⟨q, rfl⟩
  | error e =>
    rw [ofPose, hq] at h
    cases h

theorem StampedPose.exists_ofPose {T : Pose ℝ} (h : 0 < T.rotation.det) (frame : String)
    (stamp : ℝ) : ∃ m, ofPose frame stamp T = .ok m := by
  obtain ⟨q, hq⟩ := T.rotation.exists_toQuaternion_iff.mpr h
  refine ⟨⟨⟨stamp, frame⟩, T.translation, q⟩, ?_⟩
  rw [ofPose, hq]
  rfl

theorem Pose.IsProper.det_pos_compose {T U : Pose ℝ} (hU : U.IsProper) (hT : 0 < T.rotation.det) :
    0 < (T.compose U).rotation.det := by
  have hdet : (T.compose U).rotation.det = T.rotation.det * U.rotation.det := Mat3.det_mul _ _
  rw [hdet, hU.2, mul_one]
  exact hT

/-! ## One frame -/

/-- A step fails and changes nothing, or it takes the sample, or it changes counts and the bus. Only
the scan counts the frame. -/
theorem FrameRun.perform_cases {K ρ : Type} [Scalar K] (f : EstimationFrame K) (run : FrameRun K ρ)
    (step : FrameStep) :
    (step ≠ .sample ∧ step ≠ .scan ∧ ∃ e, run.perform f step = (run, some e)) ∨
    (step = .sample ∧ run.perform f step = (run.takeSample f, none)) ∨
    (step ≠ .sample ∧ ∃ stats bus,
      run.perform f step = ({ run with station := { run.station with
        viewer := { run.station.viewer with stats }, bus } }, none) ∧
      stats.frames = run.station.viewer.stats.frames + if step = .scan then 1 else 0) := by
  cases step with
  | sample => exact .inr (.inl ⟨rfl, rfl⟩)
  | report => exact .inr (.inr ⟨by simp, _, _, rfl, rfl⟩)
  | scan =>
    simp only [perform, modify, publishScan]
    split <;> exact .inr (.inr ⟨by simp, _, _, rfl, rfl⟩)
  | relation r =>
    simp only [perform, publishRelation]
    split
    · exact .inr (.inr ⟨by simp, _, _, rfl, rfl⟩)
    · exact .inl ⟨by simp, by simp, _, rfl⟩
  | odometry =>
    simp only [perform, publishOdometry]
    split
    · split
      · exact .inr (.inr ⟨by simp, _, _, rfl, rfl⟩)
      · exact .inl ⟨by simp, by simp, _, rfl⟩
    · exact .inr (.inr ⟨by simp, _, _, rfl, rfl⟩)
  | pose =>
    simp only [perform, publishPose]
    split
    · split
      · exact .inr (.inr ⟨by simp, _, _, rfl, rfl⟩)
      · exact .inl ⟨by simp, by simp, _, rfl⟩
    · exact .inr (.inr ⟨by simp, _, _, rfl, rfl⟩)

/-- A step other than the sample leaves alone what was read. -/
theorem FrameRun.perform_read {K ρ : Type} [Scalar K] (f : EstimationFrame K) (run : FrameRun K ρ)
    {step : FrameStep} (hstep : step ≠ .sample) :
    (run.perform f step).1.anchor = run.anchor ∧
      (run.perform f step).1.worldPose = run.worldPose := by
  rcases run.perform_cases f step with ⟨-, -, e, heq⟩ | ⟨hsample, -⟩ | ⟨-, stats, bus, heq, -⟩
  · rw [heq]
    exact ⟨rfl, rfl⟩
  · exact absurd hsample hstep
  · rw [heq]
    exact ⟨rfl, rfl⟩

/-- Only the sample of a frame enters the trajectory, and no step changes the map. -/
theorem FrameRun.viewer_perform {K ρ : Type} [Scalar K] (f : EstimationFrame K) (run : FrameRun K ρ)
    (step : FrameStep) :
    (run.perform f step).1.station.viewer.globalMap = run.station.viewer.globalMap ∧
    (run.perform f step).1.station.viewer.trajectory =
      if step = .sample then run.station.viewer.trajectory.add f.stamp f.pose
      else run.station.viewer.trajectory := by
  rcases run.perform_cases f step with
    ⟨hother, -, e, heq⟩ | ⟨rfl, heq⟩ | ⟨hother, stats, bus, heq, -⟩
  · rw [heq, if_neg hother]
    exact ⟨rfl, rfl⟩
  · rw [heq, if_pos rfl]
    exact ⟨rfl, rfl⟩
  · rw [heq, if_neg hother]
    exact ⟨rfl, rfl⟩

/-- Only the scan of a frame counts it. -/
theorem FrameRun.frames_perform {K ρ : Type} [Scalar K] (f : EstimationFrame K) (run : FrameRun K ρ)
    (step : FrameStep) :
    (run.perform f step).1.station.viewer.stats.frames =
      run.station.viewer.stats.frames + if step = .scan then 1 else 0 := by
  rcases run.perform_cases f step with
    ⟨-, hother, e, heq⟩ | ⟨rfl, heq⟩ | ⟨-, stats, bus, heq, hframes⟩
  · rw [heq, if_neg hother]
    rfl
  · rw [heq]
    rfl
  · rw [heq]
    exact hframes

theorem FrameStep.ne_of_behindSample {step : FrameStep} (h : step ∈ FrameStep.all.drop 2) :
    step ≠ .sample ∧ step ≠ .scan := by
  constructor <;> rintro rfl <;> simp [FrameStep.all] at h

/-- Once the sample is taken, a frame neither counts nor enters the trajectory again. -/
theorem FrameRun.viewer_behindSample {K ρ : Type} [Scalar K] (f : EstimationFrame K)
    (run : FrameRun K ρ) {step : FrameStep} (hstep : step ∈ FrameStep.all.drop 2) :
    (run.perform f step).1.station.viewer.trajectory = run.station.viewer.trajectory ∧
      (run.perform f step).1.station.viewer.stats.frames = run.station.viewer.stats.frames := by
  obtain ⟨hsample, hscan⟩ := FrameStep.ne_of_behindSample hstep
  rw [(viewer_perform f run step).2, frames_perform, if_neg hsample, if_neg hscan]
  exact ⟨rfl, rfl⟩

/-- A frame enters the trajectory once and is counted once, even if it fails in the end. -/
theorem Station.viewer_newFrame {K ρ : Type} [Scalar K] (f : EstimationFrame K) (s : Station K ρ) :
    (s.newFrame f).1.viewer.trajectory = s.viewer.trajectory.add f.stamp f.pose ∧
      (s.newFrame f).1.viewer.stats.frames = s.viewer.stats.frames + 1 := by
  let begun : FrameRun K ρ := ⟨s, .identity, .identity⟩
  have hsampled : ((begun.perform f .scan).1.perform f .sample).1.station.viewer.trajectory =
        s.viewer.trajectory.add f.stamp f.pose ∧
      ((begun.perform f .scan).1.perform f .sample).1.station.viewer.stats.frames =
        s.viewer.stats.frames + 1 :=
    ⟨congrArg (fun t => t.add f.stamp f.pose) (FrameRun.viewer_perform f begun .scan).2,
      FrameRun.frames_perform f begun .scan⟩
  have hbehind := invokeAll_preserves (P := fun run : FrameRun K ρ =>
      run.station.viewer.trajectory = s.viewer.trajectory.add f.stamp f.pose ∧
        run.station.viewer.stats.frames = s.viewer.stats.frames + 1)
    (fun step (hstep : step ∈ FrameStep.all.drop 2) run hrun =>
      ⟨(FrameRun.viewer_behindSample f run hstep).1.trans hrun.1,
        (FrameRun.viewer_behindSample f run hstep).2.trans hrun.2⟩) hsampled
  exact hbehind

/-- Once a proper anchor is read, no step of a frame with proper poses fails. -/
theorem FrameRun.Read.perform {ρ : Type} {f : EstimationFrame ℝ} {run : FrameRun ℝ ρ}
    (h : run.Read f) (hpose : f.pose.IsProper) (hextrinsic : f.extrinsic.IsProper)
    {step : FrameStep} (hstep : step ≠ .sample) :
    (run.perform f step).2 = none ∧ (run.perform f step).1.Read f := by
  obtain ⟨hanchor, hworld⟩ := perform_read f run hstep
  refine ⟨?_, ⟨hanchor ▸ h.anchor, by rw [hworld, hanchor, h.worldPose]⟩⟩
  cases step with
  | scan | sample | report => rfl
  | relation r =>
    obtain ⟨m, hm, -⟩ := (h.isProper_relationOf hpose hextrinsic r).exists_relation
      (run.relationOf f r).1 (run.relationOf f r).2.1 f.stamp
    simp only [FrameRun.perform, publishRelation, hm]
  | odometry =>
    obtain ⟨m, hm, -⟩ := hpose.exists_odometry run.station.viewer.settings.odomFrame
      run.station.viewer.settings.imuFrame f.stamp
    simp only [FrameRun.perform, publishOdometry, hm]
    split <;> rfl
  | pose =>
    have hproper : run.worldPose.IsProper := h.worldPose ▸ h.anchor.compose hpose
    obtain ⟨m, hm, -⟩ := hproper.exists_pose run.station.viewer.settings.worldFrame f.stamp
    simp only [FrameRun.perform, publishPose, hm]
    split <;> rfl

/-- No frame with proper poses fails as long as the trajectory is proper. -/
theorem Station.newFrame_succeeds {ρ : Type} {f : EstimationFrame ℝ} {s : Station ℝ ρ}
    (h : s.viewer.trajectory.IsProper) (hpose : f.pose.IsProper)
    (hextrinsic : f.extrinsic.IsProper) : (s.newFrame f).2 = none := by
  let begun : FrameRun ℝ ρ := ⟨s, .identity, .identity⟩
  have hread : ((begun.perform f .scan).1.perform f .sample).1.Read f := by
    have hscanned : (begun.perform f .scan).1.station.viewer.trajectory = s.viewer.trajectory :=
      (FrameRun.viewer_perform f begun .scan).2
    have hanchor : ((begun.perform f .scan).1.perform f .sample).1.anchor =
        s.viewer.trajectory.anchor :=
      congrArg (fun t => (t.add f.stamp f.pose).anchor) hscanned
    exact ⟨hanchor ▸ h.anchor, rfl⟩
  have hbehind := invokeAll_succeeds (P := FrameRun.Read f)
    (fun step (hstep : step ∈ FrameStep.all.drop 2) run (hrun : run.Read f) =>
      hrun.perform hpose hextrinsic (FrameStep.ne_of_behindSample hstep).1) hread
  exact hbehind

namespace OpenFrame

/-- The pose of the frame is proper. Once the sample has entered the trajectory the pose in the
world goes with the anchor, and once the anchor is told it can be told. -/
structure Sound (w : OpenFrame ℝ) : Prop where
  pose : w.frame.pose.IsProper
  left : w.left <:+ FrameStep.all
  world : .sample ∉ w.left → w.worldPose = w.anchor.compose w.frame.pose
  anchor : .relation .worldToOdom ∉ w.left → 0 < w.anchor.rotation.det

theorem sound_begin {f : EstimationFrame ℝ} (h : f.pose.IsProper) : (begin f).Sound where
  pose := h
  left := List.suffix_rfl
  world h := absurd (by simp [begin, FrameStep.all]) h
  anchor h := absurd (by simp [begin, FrameStep.all]) h

namespace Sound

variable {ρ : Type} {w : OpenFrame ℝ} {step : FrameStep} {rest : List FrameStep}

theorem rest_of_pose (h : w.Sound) (hleft : w.left = .pose :: rest) : rest = [.report] := by
  have hsuffix := h.left
  rw [hleft] at hsuffix
  simpa [FrameStep.all, List.suffix_cons_iff] using hsuffix

/-- Where the pose in the world is due, the anchor has been told. -/
theorem exists_pose (h : w.Sound) (hleft : w.left = .pose :: rest) (frame : String) :
    ∃ m, StampedPose.ofPose frame w.frame.stamp w.worldPose = .ok m := by
  have hrest := h.rest_of_pose hleft
  have hanchor := h.anchor (by simp [hleft, hrest])
  rw [h.world (by simp [hleft, hrest])]
  exact StampedPose.exists_ofPose (h.pose.det_pos_compose hanchor) _ _

/-- Only relations fail. -/
theorem exists_perform (h : w.Sound) (hleft : w.left = step :: rest)
    (hstep : ∀ r, step ≠ .relation r) (s : Station ℝ ρ) :
    ∃ after, (w.runAt s).perform w.frame step = (after, none) := by
  cases step with
  | scan | sample | report => exact ⟨_, rfl⟩
  | relation r => exact absurd rfl (hstep r)
  | odometry =>
    obtain ⟨m, hm, -⟩ := h.pose.exists_odometry s.viewer.settings.odomFrame
      s.viewer.settings.imuFrame w.frame.stamp
    simp only [FrameRun.perform, FrameRun.publishOdometry, runAt, hm]
    split <;> exact ⟨_, rfl⟩
  | pose =>
    obtain ⟨m, hm⟩ := h.exists_pose hleft s.viewer.settings.worldFrame
    simp only [FrameRun.perform, FrameRun.publishPose, runAt, hm]
    split <;> exact ⟨_, rfl⟩

theorem det_pos_of_perform {s : Station ℝ ρ} {after : FrameRun ℝ ρ}
    (hperform : (w.runAt s).perform w.frame (.relation .worldToOdom) = (after, none)) :
    0 < w.anchor.rotation.det := by
  simp only [FrameRun.perform, FrameRun.publishRelation] at hperform
  split at hperform
  next m hm => exact StampedTransform.det_pos_of_ofPose hm
  next => cases hperform

theorem worldToOdom_mem_of_sample (h : w.Sound) (hleft : w.left = .sample :: rest) :
    .relation .worldToOdom ∈ rest := by
  have hsuffix := h.left
  rw [hleft] at hsuffix
  obtain rfl : rest = FrameStep.all.drop 2 := by
    simpa [FrameStep.all, List.suffix_cons_iff] using hsuffix
  decide

/-- A frame stays sound in a step that does not fail. -/
theorem next (h : w.Sound) (hleft : w.left = step :: rest) {s : Station ℝ ρ}
    {after : FrameRun ℝ ρ} (hperform : (w.runAt s).perform w.frame step = (after, none)) :
    Sound ⟨w.frame, rest, after.anchor, after.worldPose⟩ := by
  have hsuffix : rest <:+ FrameStep.all := (List.suffix_cons step rest).trans (hleft ▸ h.left)
  have hread (hstep : step ≠ .sample) :
      after.anchor = w.anchor ∧ after.worldPose = w.worldPose := by
    have hkept := FrameRun.perform_read w.frame (w.runAt s) hstep
    rw [hperform] at hkept
    exact hkept
  refine ⟨h.pose, hsuffix, fun hsampled => ?_, fun htold => ?_⟩
  · by_cases hstep : step = .sample
    · subst hstep
      obtain ⟨rfl, -⟩ := Prod.mk.inj hperform
      rfl
    · obtain ⟨hanchor, hworld⟩ := hread hstep
      simp only [hanchor, hworld]
      exact h.world (by grind)
  · by_cases htelling : step = .relation .worldToOdom
    · subst htelling
      have hdet := det_pos_of_perform hperform
      rwa [← (hread nofun).1] at hdet
    by_cases hsampling : step = .sample
    · subst hsampling
      exact absurd (h.worldToOdom_mem_of_sample hleft) htold
    · obtain ⟨hanchor, -⟩ := hread hsampling
      rw [hanchor]
      exact h.anchor (by grind)

end Sound

end OpenFrame

/-! ## Runs -/

/-- The pose of a frame that begins is proper. -/
def LiveMove.HasProperFrame {ρ : Type} : LiveMove ℝ ρ → Prop
  | .frame f => f.pose.IsProper
  | _ => True

namespace LiveRun

variable {ρ : Type}

/-- The frame that the front end is at, if any, is sound. -/
def Sound (run : LiveRun ℝ ρ) : Prop := ∀ w ∈ run.front, w.Sound

theorem sound_of_idle {run : LiveRun ℝ ρ} (hidle : run.front = none) : run.Sound := by
  simp [Sound, hidle]

/-- By cases on the frame behind the move: one begins sound, and its steps keep it so. -/
theorem sound_act {run : LiveRun ℝ ρ} (h : run.Sound) {m : LiveMove ℝ ρ}
    (hm : m.HasProperFrame) : (run.act m).Sound := by
  intro w hw
  rcases front_act hw with
    ⟨f, rfl, rfl⟩ | hsame | ⟨v, step, after, hfront, hleft, hperform, hnext⟩
  · exact OpenFrame.sound_begin hm
  · exact h w hsame
  · rw [hnext]
    exact (h v hfront).next hleft hperform

end LiveRun

end LiveMap
