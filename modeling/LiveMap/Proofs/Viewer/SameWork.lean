import LiveMap.Proofs.Viewer.OpenFrames
import Mathlib.Tactic.SplitIfs

/-!
# Viewers that do the same work

What listeners can change at a viewer are its bus, the counts of its publications and of its
rebuilds, and the failures of its tasks. All else is the work of the viewer, and no move of it
depends on what listeners can change.

## Main definitions

* `Station.SameWork`, `Host.SameWork`, `LiveRun.SameWork`: alike but for what listeners can change.
* `LiveMove.isWatch`: a move that concerns listeners only.

## Main statements

* `LiveRun.SameWork.act`: two runs that are alike stay alike in a move.
* `LiveRun.SameWork.offer_eq`: they have the same to tell.
* `LiveRun.sameWork_watch`: listeners may come and go.
-/

namespace LiveMap

variable {K ρ : Type}

/-! ## Viewers -/

/-- Two viewers know the same, wherever they tell it. What they count of their publications may
differ. -/
structure Station.SameWork (s s' : Station K ρ) : Prop where
  id : s'.id = s.id
  settings : s'.viewer.settings = s.viewer.settings
  trajectory : s'.viewer.trajectory = s.viewer.trajectory
  clouds : s'.viewer.globalMap.clouds = s.viewer.globalMap.clouds
  totalPoints : s'.viewer.globalMap.totalPoints = s.viewer.globalMap.totalPoints
  frames : s'.viewer.stats.frames = s.viewer.stats.frames
  submapUpdates : s'.viewer.stats.submapUpdates = s.viewer.stats.submapUpdates
  wallClock : s'.wallClock = s.wallClock

namespace Station.SameWork

variable {s s' s'' : Station K ρ}

theorem refl (s : Station K ρ) : s.SameWork s := ⟨rfl, rfl, rfl, rfl, rfl, rfl, rfl, rfl⟩

theorem symm (h : s.SameWork s') : s'.SameWork s :=
  ⟨h.id.symm, h.settings.symm, h.trajectory.symm, h.clouds.symm, h.totalPoints.symm,
    h.frames.symm, h.submapUpdates.symm, h.wallClock.symm⟩

theorem trans (h : s.SameWork s') (h' : s'.SameWork s'') : s.SameWork s'' :=
  ⟨h'.id.trans h.id, h'.settings.trans h.settings, h'.trajectory.trans h.trajectory,
    h'.clouds.trans h.clouds, h'.totalPoints.trans h.totalPoints, h'.frames.trans h.frames,
    h'.submapUpdates.trans h.submapUpdates, h'.wallClock.trans h.wallClock⟩

/-- What happens on the bus is no work. -/
theorem onBus (s : Station K ρ) (bus : Bus K Address ρ) : s.SameWork { s with bus } :=
  ⟨rfl, rfl, rfl, rfl, rfl, rfl, rfl, rfl⟩

/-- Viewers that know the same still do when either has done what is no work. -/
theorem quiet {t t' : Station K ρ} (h : s.SameWork s') (ht : s.SameWork t) (ht' : s'.SameWork t') :
    t.SameWork t' := ht.symm.trans (h.trans ht')

theorem note (h : s.SameWork s') (n : Notice K) : (note n s).SameWork (LiveMap.note n s') :=
  h.quiet (onBus s _) (onBus s' _)

theorem countFrame (h : s.SameWork s') :
    (s.count fun n => { n with frames := n.frames + 1 }).SameWork
      (s'.count fun n => { n with frames := n.frames + 1 }) :=
  ⟨h.id, h.settings, h.trajectory, h.clouds, h.totalPoints, congrArg (· + 1) h.frames,
    h.submapUpdates, h.wallClock⟩

theorem countUpdate (h : s.SameWork s') :
    (s.count fun n => { n with submapUpdates := n.submapUpdates + 1 }).SameWork
      (s'.count fun n => { n with submapUpdates := n.submapUpdates + 1 }) :=
  ⟨h.id, h.settings, h.trajectory, h.clouds, h.totalPoints, h.frames,
    congrArg (· + 1) h.submapUpdates, h.wallClock⟩

theorem retain (h : s.SameWork s') (submaps : List (Submap K)) :
    (s.retain submaps).SameWork (s'.retain submaps) := by
  obtain ⟨hclouds, htotal⟩ := GlobalMap.extend_congr h.clouds h.totalPoints submaps
  rw [Station.retain, noteAll_eq, Station.retain, noteAll_eq]
  exact ⟨h.id, h.settings, h.trajectory, hclouds, htotal, h.frames, h.submapUpdates, h.wallClock⟩

variable [Scalar K]

theorem updateAnchor (h : s.SameWork s') (stamp : K) (T : Pose K) :
    (s.updateAnchor stamp T).SameWork (s'.updateAnchor stamp T) := by
  have htrajectory := congrArg (fun t => t.updateAnchor stamp T) h.trajectory
  rw [Station.updateAnchor, noteAll_eq, Station.updateAnchor, noteAll_eq]
  exact ⟨h.id, h.settings, htrajectory, h.clouds, h.totalPoints, h.frames, h.submapUpdates,
    h.wallClock⟩

/-- What a rebuild does besides retaining clouds is no work. -/
theorem of_rebuildMap (r : Rebuild K) (s : Station K ρ) :
    (s.retain r.submaps).SameWork (s.rebuildMap r).1 := by
  rcases s.rebuildMap_cases r with ⟨-, hrebuilt⟩ | ⟨-, ⟨_, -, hrebuilt⟩ | ⟨ps, -, hrebuilt⟩⟩
  · rw [hrebuilt]
    exact refl _
  · rw [hrebuilt]
    exact refl _
  · rw [hrebuilt]
    exact ⟨rfl, rfl, rfl, rfl, rfl, rfl, rfl, rfl⟩

theorem rebuildMap (h : s.SameWork s') (r : Rebuild K) :
    (s.rebuildMap r).1.SameWork (s'.rebuildMap r).1 :=
  (h.retain r.submaps).quiet (of_rebuildMap r s) (of_rebuildMap r s')

theorem offerMap_eq (h : s.SameWork s') (r : Rebuild K) : s'.offerMap r = s.offerMap r := by
  obtain ⟨hclouds, -⟩ := GlobalMap.extend_congr h.clouds h.totalPoints r.submaps
  rw [offerMap, offerMap, GlobalMap.assemble_congr hclouds, h.settings, h.wallClock]

end Station.SameWork

/-! ## Frames -/

namespace FrameRun

variable [Scalar K]

theorem sameWork_publishScan (f : EstimationFrame K) (s : Station K ρ) :
    s.SameWork (publishScan f s) := by
  unfold publishScan
  split
  · exact ⟨rfl, rfl, rfl, rfl, rfl, rfl, rfl, rfl⟩
  · exact .refl s

/-- Telling the odometry and the pose in the world is no work. -/
theorem sameWork_gated (f : EstimationFrame K) (run : FrameRun K ρ) {step : FrameStep}
    (hstep : step = .odometry ∨ step = .pose) :
    run.station.SameWork (run.perform f step).1.station := by
  rcases hstep with rfl | rfl
  · simp only [perform, publishOdometry]
    split
    · split
      · exact ⟨rfl, rfl, rfl, rfl, rfl, rfl, rfl, rfl⟩
      · exact .refl _
    · exact .refl _
  · simp only [perform, publishPose]
    split
    · split
      · exact ⟨rfl, rfl, rfl, rfl, rfl, rfl, rfl, rfl⟩
      · exact .refl _
    · exact .refl _

end FrameRun

namespace OpenFrame

variable {s s' : Station K ρ}

theorem offer_eq [Scalar K] (w : OpenFrame K) (h : s.SameWork s') (step : FrameStep) :
    (w.runAt s').offer w.frame step = (w.runAt s).offer w.frame step := by
  cases step <;> simp only [FrameRun.offer, FrameRun.relationOf, runAt, h.settings]

/-- The station, what was read, and the failure after a step, for viewers that know the same. -/
structure SameStep (p p' : FrameRun K ρ × Option PoseError) : Prop where
  station : p.1.station.SameWork p'.1.station
  anchor : p'.1.anchor = p.1.anchor
  worldPose : p'.1.worldPose = p.1.worldPose
  failure : p'.2 = p.2

theorem sameStep_relation [Scalar K] (w : OpenFrame K) (h : s.SameWork s') (r : FrameRelation) :
    SameStep ((w.runAt s).perform w.frame (.relation r))
      ((w.runAt s').perform w.frame (.relation r)) := by
  have hrelation : (w.runAt s').relationOf w.frame r = (w.runAt s).relationOf w.frame r := by
    simp only [FrameRun.relationOf, runAt, h.settings]
  simp only [FrameRun.perform, FrameRun.publishRelation, hrelation]
  split
  · exact ⟨h.quiet (.onBus s _) (.onBus s' _), rfl, rfl, rfl⟩
  · exact ⟨h, rfl, rfl, rfl⟩

/-- A step does the same work at viewers that know the same, and fails at both or at none: where it
depends on who listens, it does not fail. -/
theorem Sound.sameStep {s s' : Station ℝ ρ} {w : OpenFrame ℝ} {step : FrameStep}
    {rest : List FrameStep} (hw : w.Sound) (hleft : w.left = step :: rest) (h : s.SameWork s') :
    SameStep ((w.runAt s).perform w.frame step) ((w.runAt s').perform w.frame step) := by
  have hgated (hstep : step = .odometry ∨ step = .pose) :
      SameStep ((w.runAt s).perform w.frame step) ((w.runAt s').perform w.frame step) := by
    obtain ⟨after, hafter⟩ := hw.exists_perform hleft (by grind) s
    obtain ⟨after', hafter'⟩ := hw.exists_perform hleft (by grind) s'
    have hother : step ≠ .sample := by grind
    have hread (t : Station ℝ ρ) := FrameRun.perform_read w.frame (w.runAt t) hother
    have hquiet (t : Station ℝ ρ) := FrameRun.sameWork_gated w.frame (w.runAt t) hstep
    exact ⟨h.quiet (hquiet s) (hquiet s'), (hread s').1.trans (hread s).1.symm,
      (hread s').2.trans (hread s).2.symm, by rw [hafter, hafter']⟩
  cases step with
  | scan =>
    have hscanned := h.countFrame.quiet (FrameRun.sameWork_publishScan w.frame _)
      (FrameRun.sameWork_publishScan w.frame _)
    exact ⟨hscanned, rfl, rfl, rfl⟩
  | sample =>
    have htrajectory := congrArg (fun t => t.add w.frame.stamp w.frame.pose) h.trajectory
    refine ⟨⟨h.id, h.settings, htrajectory, h.clouds, h.totalPoints, h.frames, h.submapUpdates,
      h.wallClock⟩, congrArg Trajectory.anchor htrajectory, ?_, rfl⟩
    exact congrArg (fun t => t.toWorld w.frame.pose) htrajectory
  | relation r => exact w.sameStep_relation h r
  | odometry => exact hgated (.inl rfl)
  | pose => exact hgated (.inr rfl)
  | report => exact ⟨h.note _, rfl, rfl, rfl⟩

end OpenFrame

/-! ## Hosts -/

/-- Two hosts are alike but for the number of tasks that failed, and their viewers know the same. -/
def Host.SameWork (h h' : ViewerHost K ρ) : Prop :=
  ∃ tasksFailed s, h.surroundings.SameWork s ∧
    h' = { h with scheduler := { h.scheduler with tasksFailed }, surroundings := s }

namespace Host

/-- The host once its thread was waited for. -/
def joined (timeout : K) (h : ViewerHost K ρ) : ViewerHost K ρ :=
  { h with
    scheduler := { h.scheduler with alive := h.scheduler.alive && h.blocked }
    joins := h.joins ++ [timeout] }

theorem join_eq (timeout : K) (h : ViewerHost K ρ) :
    h.join timeout =
      if (h.scheduler.alive && h.blocked) = true then
        (note .threadBlocked (h.joined timeout), some (.threadBlocked h.scheduler.name))
      else if h.scheduler.pending = 0 then (note .schedulerStopped (h.joined timeout), none)
      else
        (note .schedulerStopped (note (.stoppedWithPending h.scheduler.pending) (h.joined timeout)),
          none) := rfl

variable [Scalar K]

/-- The host once a job has worked and submitted its children. -/
def worked (name : String) (work : K) (children : List (Task K (Rebuild K)))
    (h : ViewerHost K ρ) : ViewerHost K ρ :=
  children.foldl (fun h child => h.submit child)
    { h with started := h.started ++ [name], now := h.now + work }

theorem perform_worked (name : String) (work : K) (children : List (Task K (Rebuild K)))
    (stops fails : Bool) (h : ViewerHost K ρ) :
    h.perform Station.rebuildMap (.job name work children stops fails) =
      if stops then
        (((h.worked name work children).stop none).1,
          ((h.worked name work children).stop none).2.isNone && !fails)
      else (h.worked name work children, !fails) :=
  perform_job Station.rebuildMap name work children stops fails h

end Host

namespace Host.SameWork

variable {h h' h'' : ViewerHost K ρ}

theorem refl (h : ViewerHost K ρ) : h.SameWork h := ⟨_, _, .refl _, rfl⟩

theorem symm (hs : h.SameWork h') : h'.SameWork h := by
  obtain ⟨_, _, hstation, rfl⟩ := hs
  exact ⟨_, _, hstation.symm, rfl⟩

theorem trans (hs : h.SameWork h') (hs' : h'.SameWork h'') : h.SameWork h'' := by
  obtain ⟨_, _, hstation, rfl⟩ := hs
  obtain ⟨_, _, hstation', rfl⟩ := hs'
  exact ⟨_, _, hstation.trans hstation', rfl⟩

theorem station (hs : h.SameWork h') : h.surroundings.SameWork h'.surroundings := by
  obtain ⟨_, _, hstation, rfl⟩ := hs
  exact hstation

theorem queue (hs : h.SameWork h') : h'.scheduler.queue = h.scheduler.queue := by
  obtain ⟨_, _, -, rfl⟩ := hs
  rfl

theorem setStation (hs : h.SameWork h') {s s' : Station K ρ} (hstation : s.SameWork s') :
    Host.SameWork { h with surroundings := s } { h' with surroundings := s' } := by
  obtain ⟨_, _, -, rfl⟩ := hs
  exact ⟨_, _, hstation, rfl⟩

/-- A scheduler may do what does not depend on how many tasks failed. -/
theorem modify (hs : h.SameWork h')
    {f : Scheduler K (Task K (Rebuild K)) → Scheduler K (Task K (Rebuild K))}
    (hf : ∀ s n, ∃ tasksFailed, f { s with tasksFailed := n } = { f s with tasksFailed }) :
    (h.modify f).SameWork (h'.modify f) := by
  obtain ⟨n, s, hstation, rfl⟩ := hs
  obtain ⟨tasksFailed, hfailed⟩ := hf h.scheduler n
  refine ⟨tasksFailed, s, hstation, ?_⟩
  simp only [Host.modify, hfailed]

theorem note (hs : h.SameWork h') (n : Notice K) : (note n h).SameWork (LiveMap.note n h') :=
  hs.setStation (hs.station.note n)

theorem submit (hs : h.SameWork h') (task : Task K (Rebuild K)) :
    (h.submit task).SameWork (h'.submit task) := by
  obtain ⟨n, s, hstation, rfl⟩ := hs
  unfold Host.submit
  split_ifs
  · exact ⟨n, _, hstation.note _, rfl⟩
  · exact ⟨n, s, hstation, rfl⟩

theorem submitAll (hs : h.SameWork h') (tasks : List (Task K (Rebuild K))) :
    (tasks.foldl (fun h task => h.submit task) h).SameWork
      (tasks.foldl (fun h task => h.submit task) h') := by
  induction tasks generalizing h h' with
  | nil => exact hs
  | cons task rest ih => exact ih (hs.submit task)

theorem joined (hs : h.SameWork h') (timeout : K) :
    (h.joined timeout).SameWork (h'.joined timeout) := by
  obtain ⟨n, s, hstation, rfl⟩ := hs
  exact ⟨n, s, hstation, rfl⟩

theorem join (hs : h.SameWork h') (timeout : K) :
    (h.join timeout).1.SameWork (h'.join timeout).1 ∧
      (h'.join timeout).2 = (h.join timeout).2 := by
  have hjoined := hs.joined timeout
  have hpending : h'.scheduler.pending = h.scheduler.pending := congrArg Queue.length hs.queue
  obtain ⟨halive, hname⟩ : (h'.scheduler.alive && h'.blocked) = (h.scheduler.alive && h.blocked) ∧
      h'.scheduler.name = h.scheduler.name := by
    obtain ⟨n, s, -, rfl⟩ := hs
    exact ⟨rfl, rfl⟩
  rw [join_eq, join_eq, halive, hname, hpending]
  split_ifs
  · exact ⟨hjoined.note _, rfl⟩
  · exact ⟨hjoined.note _, rfl⟩
  · exact ⟨(hjoined.note _).note _, rfl⟩

/-- Both schedulers end, or neither does. -/
theorem stop (hs : h.SameWork h') (timeout : Option K) :
    (h.stop timeout).1.SameWork (h'.stop timeout).1 ∧
      (h'.stop timeout).2 = (h.stop timeout).2 := by
  have htold : h.tell.SameWork h'.tell := hs.modify fun _ n => ⟨n, rfl⟩
  have hjoined := htold.join (timeout.getD h.scheduler.joinTimeout)
  obtain ⟨n, s, hstation, rfl⟩ := hs
  unfold Host.stop
  dsimp only
  split
  · exact ⟨⟨n, s, hstation, rfl⟩, rfl⟩
  · split
    · exact ⟨htold, rfl⟩
    · exact hjoined

variable [Scalar K]

theorem worked (hs : h.SameWork h') (name : String) (work : K)
    (children : List (Task K (Rebuild K))) :
    (h.worked name work children).SameWork (h'.worked name work children) := by
  refine submitAll ?_ children
  obtain ⟨n, s, hstation, rfl⟩ := hs
  exact ⟨n, s, hstation, rfl⟩

/-- What a task does depends on nothing that listeners can change; whether it fails may. -/
theorem runTask (hs : h.SameWork h') (task : Task K (Rebuild K)) :
    (h.runTask Station.rebuildMap task).SameWork (h'.runTask Station.rebuildMap task) := by
  cases task with
  | duty r =>
    have hquiet (g : ViewerHost K ρ) : Host.SameWork
        { g with surroundings := (g.surroundings.rebuildMap r).1 }
        (g.runTask Station.rebuildMap (.duty r)) := by
      rw [runTask_eq]
      split_ifs
      · exact refl _
      · exact ⟨_, _, .onBus _ _, rfl⟩
    have hrebuilt := hs.setStation (hs.station.rebuildMap r)
    exact (hquiet h).symm.trans (hrebuilt.trans (hquiet h'))
  | job name work children stops fails =>
    have hworked := hs.worked name work children
    obtain ⟨hstopped, hended⟩ := hworked.stop none
    obtain ⟨hperformed, hok⟩ :
        (h.perform Station.rebuildMap (.job name work children stops fails)).1.SameWork
          (h'.perform Station.rebuildMap (.job name work children stops fails)).1 ∧
        (h'.perform Station.rebuildMap (.job name work children stops fails)).2 =
          (h.perform Station.rebuildMap (.job name work children stops fails)).2 := by
      rw [perform_worked, perform_worked, hended]
      split_ifs
      · exact ⟨hstopped, rfl⟩
      · exact ⟨hworked, rfl⟩
    rw [runTask_eq, runTask_eq, hok]
    split_ifs
    · exact hperformed
    · exact (hperformed.modify fun s n => ⟨n + 1, rfl⟩).note _

theorem updateSubmaps (hs : h.SameWork h') (submaps : List (Submap K)) :
    (h.updateSubmaps submaps).1.SameWork (h'.updateSubmaps submaps).1 := by
  unfold ViewerHost.updateSubmaps
  split
  · exact hs
  · exact (hs.setStation (hs.station.countUpdate.updateAnchor _ _)).submit _

end Host.SameWork

/-! ## Runs -/

/-- A move that concerns listeners only. -/
def LiveMove.isWatch : LiveMove K ρ → Bool
  | .map (.subscribe _ _) | .map (.unsubscribe _ _) | .rescript _ => true
  | _ => false

/-- Two runs are at the same frame with the same tasks before them, and alike. -/
structure LiveRun.SameWork (run run' : LiveRun K ρ) : Prop where
  front : run'.front = run.front
  taken : run'.map.taken = run.map.taken
  host : run.map.host.SameWork run'.map.host

namespace LiveRun

variable [Scalar K]

/-- Listeners may come and go, and change what they do. -/
theorem sameWork_watch (run : LiveRun K ρ) {m : LiveMove K ρ} (hm : m.isWatch = true) :
    run.SameWork (run.act m) := by
  cases m with
  | rescript => exact ⟨rfl, rfl, _, _, .onBus _ _, rfl⟩
  | frame | proceed => cases hm
  | map m =>
    cases m with
    | subscribe | unsubscribe => exact ⟨rfl, rfl, _, _, .onBus _ _, rfl⟩
    | _ => cases hm

namespace SameWork

variable {run run' run'' : LiveRun K ρ}

omit [Scalar K] in
theorem refl (run : LiveRun K ρ) : run.SameWork run := ⟨rfl, rfl, .refl _⟩

omit [Scalar K] in
theorem symm (h : run.SameWork run') : run'.SameWork run :=
  ⟨h.front.symm, h.taken.symm, h.host.symm⟩

omit [Scalar K] in
theorem trans (h : run.SameWork run') (h' : run'.SameWork run'') : run.SameWork run'' :=
  ⟨h'.front.trans h.front, h'.taken.trans h.taken, h.host.trans h'.host⟩

omit [Scalar K] in
theorem station (h : run.SameWork run') : run.station.SameWork run'.station := h.host.station

/-- Runs that are alike have the same to tell. -/
theorem offer_eq (h : run.SameWork run') (m : LiveMove K ρ) : run'.offer m = run.offer m := by
  cases m with
  | proceed =>
    simp only [offer, h.front, OpenFrame.offer_eq _ h.station]
  | map m =>
    cases m with
    | perform => simp only [offer, h.taken, h.station.offerMap_eq]
    | _ => rfl
  | frame | rescript => rfl

/-- The other threads do the same at both. -/
theorem onMap (h : run.SameWork run') (m : MapMove K ρ) :
    (run.act (.map m)).SameWork (run'.act (.map m)) := by
  obtain ⟨⟨host, taken⟩, front⟩ := run
  obtain ⟨⟨host', taken'⟩, front'⟩ := run'
  obtain ⟨hfront, htaken, hhost⟩ := h
  obtain rfl : front' = front := hfront
  obtain rfl : taken' = taken := htaken
  replace hhost : host.SameWork host' := hhost
  cases m with
  | update submaps => exact ⟨rfl, rfl, hhost.updateSubmaps submaps⟩
  | invoke task => exact ⟨rfl, rfl, hhost.submit task⟩
  | perform =>
    cases taken' with
    | nil => exact ⟨rfl, rfl, hhost⟩
    | cons task rest => exact ⟨rfl, rfl, hhost.runTask task⟩
  | subscribe a l =>
    exact ⟨rfl, rfl, hhost.setStation (hhost.station.quiet (.onBus _ _) (.onBus _ _))⟩
  | unsubscribe a handle =>
    exact ⟨rfl, rfl, hhost.setStation (hhost.station.quiet (.onBus _ _) (.onBus _ _))⟩
  | reposition | take | count =>
    obtain ⟨n, s, hstation, rfl⟩ := hhost
    exact ⟨rfl, rfl, n, s, hstation, rfl⟩
  | tick wallClock =>
    have hstation := hhost.station
    exact ⟨rfl, rfl, hhost.setStation { hstation with wallClock := rfl }⟩

theorem proceed {run run' : LiveRun ℝ ρ} (h : run.SameWork run') (hsound : run.Sound) :
    run.proceed.SameWork run'.proceed := by
  have hfront := h.front
  cases hw : run.front with
  | none =>
    rw [hw] at hfront
    simpa only [LiveRun.proceed, hw, hfront] using h
  | some w =>
    rw [hw] at hfront
    cases hleft : w.left with
    | nil =>
      simp only [LiveRun.proceed, hw, hfront, hleft]
      exact ⟨rfl, h.taken, h.host⟩
    | cons step rest =>
      obtain ⟨hstation, hanchor, hworld, hfailure⟩ := (hsound w hw).sameStep hleft h.station
      rw [proceed_of_left hw hleft, proceed_of_left hfront hleft]
      refine ⟨?_, h.taken, h.host.setStation hstation⟩
      simp only [hanchor, hworld, hfailure]

/-- Runs that are alike stay alike in a move. -/
theorem act {run run' : LiveRun ℝ ρ} (h : run.SameWork run') (hsound : run.Sound)
    (m : LiveMove ℝ ρ) : (run.act m).SameWork (run'.act m) := by
  cases m with
  | frame f =>
    simp only [LiveRun.act, h.front]
    split
    · exact ⟨rfl, h.taken, h.host⟩
    · exact h
  | proceed => exact h.proceed hsound
  | rescript script =>
    exact (sameWork_watch run (m := .rescript script) rfl).symm.trans
      (h.trans (sameWork_watch run' (m := .rescript script) rfl))
  | map m => exact h.onMap m

end SameWork

end LiveRun

end LiveMap
