import LiveMap.Proofs.Viewer.FrameSteps

/-!
# Frames among corrections

The front end of a viewer handles one frame after the other, step by step. Corrections of the anchor
come from other threads, between any two steps. What is told for a frame fits together all the same,
because the anchor is read in the step in which the sample enters the trajectory.

## Main definitions

* `Move`: a step of the front end, or a correction; `play`: moves one after the other.
* `frontEnd`: what the front end does in moves; `CallOf`: the part of moves in which it handles one
  frame.
* `Station.Consistent`: what is told for a frame fits together.

## Main statements

* `FrameRun.exists_play`: moves without a sample advance the frame by the steps that they hold.
* `FrameRun.frames_consistent`: no step fails, and every frame is told consistently.
-/

namespace LiveMap

/-- What can happen to a viewer that handles frames. -/
inductive Move (K : Type) where
  /-- The front end does a step of a frame. -/
  | step (f : EstimationFrame K) (s : FrameStep)
  /-- Another thread corrects the anchor. -/
  | correct (stamp : K) (T_world_imu : Pose K)

namespace Move

variable {K ρ : Type}

/-- A move at a viewer in the middle of a frame. -/
def act [Scalar K] : Move K → FrameRun K ρ → FrameRun K ρ × Option PoseError
  | .step f s, run => run.perform f s
  | .correct stamp T, run => (run.modify (Station.updateAnchor stamp T), none)

/-- The step that a move is, if the front end makes it. -/
def step? : Move K → Option (EstimationFrame K × FrameStep)
  | .step f s => some (f, s)
  | .correct _ _ => none

/-- All poses of the move are proper. -/
def IsProper : Move ℝ → Prop
  | .step f _ => f.pose.IsProper ∧ f.extrinsic.IsProper
  | .correct _ T => T.IsProper

end Move

/-- What the front end does in the course of moves. -/
def frontEnd {K : Type} (moves : List (Move K)) : List (EstimationFrame K × FrameStep) :=
  moves.filterMap Move.step?

/-- Moves one after the other, up to a step that fails. -/
def play {K ρ : Type} [Scalar K] (moves : List (Move K)) (run : FrameRun K ρ) :
    FrameRun K ρ × Option PoseError :=
  invokeAll Move.act moves run

/-- The steps behind the sample. -/
def FrameStep.behindSample : List FrameStep :=
  [relation .odomToImu, relation .imuToLidar, relation .worldToOdom, odometry, pose, report]

/-- The steps of a frame. -/
def EstimationFrame.steps {K : Type} (f : EstimationFrame K) :
    List (EstimationFrame K × FrameStep) :=
  FrameStep.all.map (f, ·)

/-- A frame is handled in the course of moves: those before it, those up to its sample, and those
behind its sample. -/
structure CallOf {K : Type} (earlier : List (EstimationFrame K)) (f : EstimationFrame K)
    (before first rest : List (Move K)) : Prop where
  before : frontEnd before = earlier.flatMap EstimationFrame.steps
  first : frontEnd first = [(f, .scan)]
  rest : frontEnd rest = FrameStep.behindSample.map (f, ·)

section Play

variable {K ρ : Type} [Scalar K]

omit [Scalar K] in
@[simp] theorem frontEnd_nil : frontEnd ([] : List (Move K)) = [] := rfl

omit [Scalar K] in
@[simp] theorem frontEnd_step (f : EstimationFrame K) (s : FrameStep) (moves : List (Move K)) :
    frontEnd (.step f s :: moves) = (f, s) :: frontEnd moves := rfl

omit [Scalar K] in
@[simp] theorem frontEnd_correct (stamp : K) (T : Pose K) (moves : List (Move K)) :
    frontEnd (.correct stamp T :: moves) = frontEnd moves := rfl

omit [Scalar K] in
theorem frontEnd_append (moves moves' : List (Move K)) :
    frontEnd (moves ++ moves') = frontEnd moves ++ frontEnd moves' :=
  List.filterMap_append

theorem play_append_of_ok {moves moves' : List (Move K)} {run run' : FrameRun K ρ}
    (h : play moves run = (run', none)) : play (moves ++ moves') run = play moves' run' := by
  simp only [play] at h ⊢
  rw [invokeAll_append, h]

theorem play_cons_of_ok {m : Move K} {moves : List (Move K)} {run run' : FrameRun K ρ}
    (h : m.act run = (run', none)) : play (m :: moves) run = play moves run' := by
  simp only [play, invokeAll, h]

/-- The steps of a frame, one after the other, are a run without corrections. -/
theorem newFrame_eq_play (f : EstimationFrame K) (s : Station K ρ) :
    s.newFrame f =
      let (run, failure) := play (FrameStep.all.map (.step f)) ⟨s, .identity, .identity⟩
      (run.station, failure) := rfl

end Play

/-! ## One frame -/

/-- What is told for a frame between two states of a viewer fits together: `A` is `T_world_odom` and
the pose of the frame is `T_odom_imu` in all of it, and a frame tree finds both. -/
structure Station.Consistent {ρ : Type} (f : EstimationFrame ℝ) (tree : Nat) (A : Pose ℝ)
    (start finish : Station ℝ ρ) : Prop where
  told : ∃ (scan : Option (PointCloud ℝ)) (O E W : StampedTransform ℝ)
    (odometry : Option (Odometry ℝ)) (pose : Option (StampedPose ℝ)),
    finish.bus.sent = start.bus.sent
      ++ scan.toList.map (fun m => ((start.id, .points), .cloud m))
      ++ [O, E, W].map (fun m => ((start.id, .relations), .relation m))
      ++ odometry.toList.map (fun m => ((start.id, .odometry), .odometry m))
      ++ pose.toList.map (fun m => ((start.id, .pose), .pose m)) ∧
    O.Tells start.viewer.settings.odomFrame start.viewer.settings.imuFrame f.stamp f.pose ∧
    E.Tells start.viewer.settings.imuFrame start.viewer.settings.lidarFrame f.stamp f.extrinsic ∧
    W.Tells start.viewer.settings.worldFrame start.viewer.settings.odomFrame f.stamp A ∧
    (∀ m ∈ odometry,
      m.Tells start.viewer.settings.odomFrame start.viewer.settings.imuFrame f.stamp f.pose) ∧
    (∀ m ∈ pose, m.Tells start.viewer.settings.worldFrame f.stamp (A.compose f.pose)) ∧
    (start.bus.Keeps (start.id, .odometry) → odometry.isSome) ∧
    (start.bus.Keeps (start.id, .pose) → pose.isSome)
  world_imu : (finish.bus.treeAt tree).lookup start.viewer.settings.worldFrame
    start.viewer.settings.imuFrame = .ok (A.compose f.pose)
  odom_imu : (finish.bus.treeAt tree).lookup start.viewer.settings.odomFrame
    start.viewer.settings.imuFrame = .ok f.pose

namespace FrameRun

variable {ρ : Type} {f : EstimationFrame ℝ} {run : FrameRun ℝ ρ} {tree handle : Nat}

/-- By induction on the moves: a correction advances nothing, and a step advances the frame by
itself. -/
theorem exists_play {moves : List (Move ℝ)} (hproper : ∀ m ∈ moves, m.IsProper)
    {steps : List FrameStep} (hfront : frontEnd moves = steps.map (f, ·))
    (hready : run.station.Ready tree handle) (hsample : .sample ∉ steps)
    (hread : (∀ s ∈ steps, s = .scan) ∨ run.Read f) :
    ∃ run', play moves run = (run', none) ∧ Advance f tree handle steps run run' := by
  induction moves generalizing steps run with
  | nil =>
    obtain rfl : steps = [] := by simpa using hfront.symm
    exact ⟨run, rfl, .refl hready⟩
  | cons m moves ih =>
    have hmoves : ∀ m ∈ moves, m.IsProper := fun x hx => hproper x (List.mem_cons_of_mem _ hx)
    have hm := hproper m List.mem_cons_self
    cases m with
    | correct stamp T =>
      have hcorrected : Advance f tree handle [] run (run.modify (Station.updateAnchor stamp T)) :=
        .of_correction hready stamp hm
      obtain ⟨run', hplay, hadvance⟩ := ih hmoves (by simpa using hfront)
        hcorrected.ready hsample (hread.imp_right hcorrected.read)
      exact ⟨run', hplay, hcorrected.trans hadvance⟩
    | step g s =>
      obtain ⟨s', rest, rfl, hs, hrest⟩ : ∃ s' rest, steps = s' :: rest ∧ (f, s') = (g, s) ∧
          rest.map (f, ·) = frontEnd moves := by
        simpa [List.map_eq_cons_iff] using hfront.symm
      obtain ⟨rfl, rfl⟩ : f = g ∧ s' = s := by simpa using hs
      have hother : s' ≠ .sample := fun h => hsample (h ▸ List.mem_cons_self)
      obtain ⟨stepped, hperform, hstepped⟩ := exists_perform hready hm.1 hm.2 hother
        (fun h => hread.resolve_left fun hall => h (hall s' List.mem_cons_self))
      obtain ⟨run', hplay, hadvance⟩ := ih hmoves hrest.symm hstepped.ready
        (fun h => hsample (List.mem_cons_of_mem _ h))
        (hread.imp (fun hall x hx => hall x (List.mem_cons_of_mem _ hx)) hstepped.read)
      have hact : Move.act (.step f s') run = (stepped, none) := hperform
      exact ⟨run', (play_cons_of_ok hact).trans hplay, hstepped.trans hadvance⟩

/-! ### What the steps told -/

theorem Tells.exists_scan {told : List (Address × Message ℝ)} (h : run.Tells f .scan told) :
    ∃ m : Option (PointCloud ℝ),
      told = m.toList.map fun m => ((run.station.id, .points), .cloud m) := by
  rcases h with rfl | rfl
  · exact ⟨none, rfl⟩
  · exact ⟨some _, rfl⟩

theorem Tells.exists_odometry {told : List (Address × Message ℝ)} (h : run.Tells f .odometry told) :
    ∃ m : Option (Odometry ℝ),
      told = m.toList.map (fun m => ((run.station.id, .odometry), .odometry m)) ∧
      (∀ t ∈ m, t.Tells run.station.viewer.settings.odomFrame run.station.viewer.settings.imuFrame
        f.stamp f.pose) ∧
      (run.station.bus.Keeps (run.station.id, .odometry) → m.isSome) := by
  rcases h with ⟨rfl, hleft⟩ | ⟨m, rfl, hm⟩
  · exact ⟨none, rfl, nofun, fun hk => absurd hk hleft⟩
  · exact ⟨some m, rfl, by simpa using hm, fun _ => rfl⟩

theorem Tells.exists_pose {told : List (Address × Message ℝ)} (h : run.Tells f .pose told) :
    ∃ m : Option (StampedPose ℝ),
      told = m.toList.map (fun m => ((run.station.id, .pose), .pose m)) ∧
      (∀ t ∈ m, t.Tells run.station.viewer.settings.worldFrame f.stamp
        (run.anchor.compose f.pose)) ∧
      (run.station.bus.Keeps (run.station.id, .pose) → m.isSome) := by
  rcases h with ⟨rfl, hleft⟩ | ⟨m, rfl, hm⟩
  · exact ⟨none, rfl, nofun, fun hk => absurd hk hleft⟩
  · exact ⟨some m, rfl, by simpa using hm, fun _ => rfl⟩

/-- The sample is taken and the anchor is read in one step, so that they belong together. -/
theorem ready_takeSample (h : run.station.Ready tree handle) (hpose : f.pose.IsProper) :
    (run.takeSample f).station.Ready tree handle ∧ (run.takeSample f).Read f :=
  ⟨⟨h.distinct, h.trajectory.add f.stamp hpose, h.feeds, h.root⟩, h.trajectory.anchor, rfl⟩

variable {sampling finish : FrameRun ℝ ρ}

/-- The frames of the viewer stand in the tree as they were told. -/
theorem Advance.chained (hbefore : Advance f tree handle [.scan] run sampling)
    (hbehind : Advance f tree handle FrameStep.behindSample (sampling.takeSample f) finish) :
    (finish.station.bus.treeAt tree).Chained run.station.viewer.settings f.stamp
      sampling.station.viewer.trajectory.anchor f.pose f.extrinsic := by
  have hsettings : run.station.viewer.settings = sampling.station.viewer.settings :=
    hbefore.settings.symm
  have hroot := hbehind.ready.root
  rw [hbehind.settings] at hroot
  rw [hsettings]
  exact {
    world := hroot
    odom := hbehind.links .worldToOdom (by simp [FrameStep.behindSample])
    imu := hbehind.links .odomToImu (by simp [FrameStep.behindSample])
    lidar := hbehind.links .imuToLidar (by simp [FrameStep.behindSample]) }

theorem Advance.consistent (hbefore : Advance f tree handle [.scan] run sampling)
    (hbehind : Advance f tree handle FrameStep.behindSample (sampling.takeSample f) finish) :
    Station.Consistent f tree sampling.station.viewer.trajectory.anchor run.station
      finish.station := by
  have hhangs := (hbefore.chained hbehind).hangs
  refine ⟨?_, hhangs.lookup_world_imu, hhangs.lookup_odom_imu⟩
  obtain ⟨_, _ | ⟨hscan, ⟨⟩⟩, hsentBefore⟩ := hbefore.told
  obtain ⟨_, _ | ⟨hO, _ | ⟨hE, _ | ⟨hW, _ | ⟨hodometry, _ | ⟨hpose, _ | ⟨hreport, ⟨⟩⟩⟩⟩⟩⟩⟩,
    hsentBehind⟩ := hbehind.told
  obtain ⟨scan, rfl⟩ := hscan.exists_scan
  obtain ⟨O, rfl, hO⟩ := hO
  obtain ⟨E, rfl, hE⟩ := hE
  obtain ⟨W, rfl, hW⟩ := hW
  obtain ⟨odometry, rfl, hodometry, hkeepsOdometry⟩ := hodometry.exists_odometry
  obtain ⟨pose, rfl, hpose, hkeepsPose⟩ := hpose.exists_pose
  obtain rfl := hreport
  have hid : (sampling.takeSample f).station.id = run.station.id := hbefore.id
  have hsettings : (sampling.takeSample f).station.viewer.settings = run.station.viewer.settings :=
    hbefore.settings
  have hsent : (sampling.takeSample f).station.bus.sent = sampling.station.bus.sent := rfl
  have hkeeps (a : Address) (hk : run.station.bus.Keeps a) :
      (sampling.takeSample f).station.bus.Keeps a := hbefore.keeps a hk
  rw [hsent, hsentBefore, hid] at hsentBehind
  rw [hsettings] at hodometry hpose
  rw [hid] at hkeepsOdometry hkeepsPose
  simp only [FrameRun.relationOf, hsettings] at hO hE hW
  refine ⟨scan, O, E, W, odometry, pose, ?_, hO, hE, hW, hodometry, hpose,
    fun hk => hkeepsOdometry (hkeeps _ hk), fun hk => hkeepsPose (hkeeps _ hk)⟩
  simpa using hsentBehind

/-- One frame among corrections, by the anchor that the trajectory has when the sample enters it. -/
theorem exists_play_call {first rest : List (Move ℝ)}
    (hproper : ∀ m ∈ first ++ .step f .sample :: rest, m.IsProper)
    (hfirst : frontEnd first = [(f, .scan)])
    (hrest : frontEnd rest = FrameStep.behindSample.map (f, ·))
    (hready : run.station.Ready tree handle) :
    ∃ sampling finish, play first run = (sampling, none) ∧
      play (first ++ .step f .sample :: rest) run = (finish, none) ∧
      Advance f tree handle [.scan] run sampling ∧
      Advance f tree handle FrameStep.behindSample (sampling.takeSample f) finish := by
  simp only [List.forall_mem_append, List.forall_mem_cons] at hproper
  obtain ⟨hproperFirst, hsample, hproperRest⟩ := hproper
  have hscan : frontEnd first = [FrameStep.scan].map (f, ·) := hfirst
  obtain ⟨sampling, hplayFirst, hbefore⟩ := exists_play hproperFirst hscan hready (by simp)
    (.inl (by simp))
  obtain ⟨hsampled, hread⟩ := ready_takeSample hbefore.ready hsample.1
  obtain ⟨finish, hplayRest, hbehind⟩ := exists_play hproperRest hrest hsampled
    (by simp [FrameStep.behindSample]) (.inr hread)
  refine ⟨sampling, finish, hplayFirst, ?_, hbefore, hbehind⟩
  have hstep : Move.act (.step f .sample) sampling = (sampling.takeSample f, none) := rfl
  rw [play_append_of_ok hplayFirst, play_cons_of_ok hstep, hplayRest]

/-! ## All frames -/

/-- The part of moves that handles the next frame, and what comes behind it. -/
theorem exists_split {K : Type} {moves : List (Move K)} {f : EstimationFrame K}
    {later : List (EstimationFrame K × FrameStep)} (h : frontEnd moves = f.steps ++ later) :
    ∃ first rest after, moves = (first ++ .step f .sample :: rest) ++ after ∧
      frontEnd first = [(f, .scan)] ∧ frontEnd rest = FrameStep.behindSample.map (f, ·) ∧
      frontEnd after = later := by
  have hsteps : f.steps ++ later =
      [(f, .scan)] ++ (f, .sample) :: (FrameStep.behindSample.map (f, ·) ++ later) := rfl
  obtain ⟨scanning, others, rfl, hscan, hothers⟩ :=
    List.filterMap_eq_append_iff.mp (h.trans hsteps)
  obtain ⟨quiet, m, others, rfl, hquiet, hm, hbehind⟩ := List.filterMap_eq_cons_iff.mp hothers
  obtain ⟨rest, after, rfl, hrest, hafter⟩ := List.filterMap_eq_append_iff.mp hbehind
  obtain rfl : m = .step f .sample := by
    cases m with
    | step g s => simpa [Move.step?] using hm
    | correct stamp T => simp [Move.step?] at hm
  refine ⟨scanning ++ quiet, rest, after, by simp, ?_, hrest, hafter⟩
  have hnone : frontEnd quiet = [] := List.filterMap_eq_nil_iff.mpr hquiet
  rw [frontEnd_append, hnone, List.append_nil]
  exact hscan

theorem exists_play_frames {frames : List (EstimationFrame ℝ)} {moves : List (Move ℝ)}
    (hproper : ∀ m ∈ moves, m.IsProper) (hfront : frontEnd moves = frames.flatMap (·.steps))
    (hready : run.station.Ready tree handle) :
    ∃ run', play moves run = (run', none) ∧ run'.station.Ready tree handle := by
  induction frames generalizing moves run with
  | nil =>
    -- Where no step is done, the frame does not matter.
    have hnone : frontEnd moves =
        ([] : List FrameStep).map (⟨0, .imu, .identity, .identity, [], 0⟩, ·) := hfront
    obtain ⟨run', hplay, hadvance⟩ := exists_play hproper hnone hready (by simp) (.inl (by simp))
    exact ⟨run', hplay, hadvance.ready⟩
  | cons f frames ih =>
    obtain ⟨first, rest, after, rfl, hfirst, hrest, hafter⟩ := exists_split hfront
    rw [List.forall_mem_append] at hproper
    obtain ⟨_, finish, _, hplay, _, hbehind⟩ :=
      exists_play_call hproper.1 hfirst hrest hready
    obtain ⟨run', hplayAfter, hready'⟩ := ih hproper.2 hafter hbehind.ready
    exact ⟨run', (play_append_of_ok hplay).trans hplayAfter, hready'⟩

/-- However corrections interleave with the steps of frames, no step fails, and every frame is told
consistently, with the anchor that the trajectory had when the sample of the frame entered it. -/
theorem frames_consistent {frames : List (EstimationFrame ℝ)} {moves : List (Move ℝ)}
    (hready : run.station.Ready tree handle) (hproper : ∀ m ∈ moves, m.IsProper)
    (hfront : frontEnd moves = frames.flatMap (·.steps)) :
    (play moves run).2 = none ∧
    ∀ earlier f later, frames = earlier ++ f :: later →
      (∃ before first rest after, moves = before ++ (first ++ .step f .sample :: rest) ++ after ∧
        CallOf earlier f before first rest) ∧
      ∀ before first rest after, moves = before ++ (first ++ .step f .sample :: rest) ++ after →
        CallOf earlier f before first rest →
        Station.Consistent f tree (play (before ++ first) run).1.station.viewer.trajectory.anchor
          (play before run).1.station
          (play (before ++ (first ++ .step f .sample :: rest)) run).1.station := by
  constructor
  · obtain ⟨run', hplay, -⟩ := exists_play_frames hproper hfront hready
    rw [hplay]
  · rintro earlier f later rfl
    constructor
    · rw [List.flatMap_append, List.flatMap_cons] at hfront
      obtain ⟨before, others, rfl, hbefore, hothers⟩ := List.filterMap_eq_append_iff.mp hfront
      obtain ⟨first, rest, after, rfl, hfirst, hrest, -⟩ := exists_split hothers
      exact ⟨before, first, rest, after, by simp, hbefore, hfirst, hrest⟩
    · rintro before first rest after rfl hcall
      simp only [List.forall_mem_append] at hproper
      obtain ⟨start, hplayBefore, hstart⟩ := exists_play_frames hproper.1.1 hcall.before hready
      obtain ⟨sampling, finish, hplayFirst, hplay, hscan, hbehind⟩ :=
        exists_play_call (List.forall_mem_append.mpr hproper.1.2) hcall.first hcall.rest hstart
      rw [play_append_of_ok hplayBefore, play_append_of_ok hplayBefore, hplayBefore, hplayFirst,
        hplay]
      exact hscan.consistent hbehind

/-- A frame one meter ahead, without points. -/
noncomputable def frameAhead : EstimationFrame ℝ where
  stamp := 1
  frame := .imu
  pose := ⟨.identity, ⟨1, 0, 0⟩⟩
  extrinsic := .identity
  points := []

/-- The frame, with a correction right behind its sample. -/
noncomputable def lateCorrection : List (Move ℝ) :=
  .step frameAhead .scan :: .step frameAhead .sample :: .correct 1 ⟨.identity, ⟨0, 0, 1⟩⟩ ::
    FrameStep.behindSample.map (.step frameAhead)

/-- A fresh viewer before any frame. -/
noncomputable def freshRun : FrameRun ℝ Empty := ⟨.fresh .short, .identity, .identity⟩

/-- A correction right behind the sample comes too late for the frame. -/
theorem consistent_of_lateCorrection :
    freshRun.station.Ready 0 0 ∧ (∀ m ∈ lateCorrection, m.IsProper) ∧
    frontEnd lateCorrection = [frameAhead].flatMap (·.steps) ∧
    Station.Consistent frameAhead 0 .identity freshRun.station
      (play lateCorrection freshRun).1.station := by
  have hready : freshRun.station.Ready 0 0 := Station.ready_fresh_short
  have hproper : ∀ m ∈ lateCorrection, m.IsProper := by
    simp [lateCorrection, FrameStep.behindSample, Move.IsProper, Pose.IsProper, frameAhead,
      Pose.identity, Mat3.isRotation_identity]
  have hfront : frontEnd lateCorrection = [frameAhead].flatMap (·.steps) := rfl
  obtain ⟨-, hframes⟩ := frames_consistent hready hproper hfront
  refine ⟨hready, hproper, hfront, ?_⟩
  exact (hframes [] frameAhead [] rfl).2 [] [.step frameAhead .scan] (.correct 1 _ :: _) []
    (by simp [lateCorrection]) ⟨rfl, rfl, rfl⟩

end FrameRun

end LiveMap
