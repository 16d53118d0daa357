import LiveMap.Proofs.Bus.Publication
import LiveMap.Proofs.Geometry.UnitQuaternion
import LiveMap.Proofs.Trajectory.Sorted
import LiveMap.Proofs.Viewer.FrameChain
import LiveMap.Viewer.Frame
import LiveMap.Viewer.MapUpdate

/-!
# The steps of a frame

A viewer is ready when its poses are proper and a frame tree is fed with its relations. Then no step
of a frame fails, each tells at most one message, and the tree takes what is told. A correction of
the anchor tells nothing and leaves alone what the frame has read.

## Main definitions

* `Station.Ready`: a viewer over the real numbers with a frame tree at its relations;
  `Station.fresh` is one.
* `FrameRelation.parent`, `FrameRelation.child`: the frames that a relation relates.
* `FrameRun.Read`: the frame has read a proper anchor, and the pose in the world goes with it.
* `FrameRun.Tells`: the messages of a step; `FrameRun.Advance`: what steps bring about.

## Main statements

* `FrameRun.exists_perform`: a step succeeds and advances the frame.
* `FrameRun.Advance.of_correction`: a correction advances nothing.
-/

namespace LiveMap

/-! ## Proper trajectories -/

namespace Trajectory

/-- The anchor and all samples are proper poses. -/
structure IsProper (t : Trajectory ℝ) : Prop where
  anchor : t.anchor.IsProper
  history : ∀ s ∈ t.history, s.pose.IsProper

theorem isProper_start (tolerance : ℝ) : (start tolerance).IsProper :=
  ⟨Pose.isProper_identity, by simp [start]⟩

namespace IsProper

variable {t : Trajectory ℝ} {T : Pose ℝ}

theorem add (h : t.IsProper) (stamp : ℝ) (hT : T.IsProper) : (t.add stamp T).IsProper := by
  refine ⟨h.anchor, fun s hs => ?_⟩
  rcases eq_or_mem_of_mem_insertSample hs with rfl | hs
  · exact hT
  · exact h.history s hs

theorem updateAnchor (h : t.IsProper) (stamp : ℝ) (hT : T.IsProper) :
    (t.updateAnchor stamp T).IsProper := by
  unfold Trajectory.updateAnchor
  split
  · exact h
  · next s hs =>
    have hs : s.pose.IsProper := h.history s (List.mem_of_getElem? hs)
    exact ⟨hT.compose hs.inverse, fun x hx => h.history x (List.mem_of_mem_drop hx)⟩

end IsProper

end Trajectory

/-! ## Ready viewers -/

/-- The frames of the viewer are distinct and its poses proper. Its relations feed the frame tree of
an index by the subscription of a handle; there the world is a root. -/
structure Station.Ready {ρ : Type} (s : Station ℝ ρ) (tree handle : Nat) : Prop where
  distinct : s.viewer.settings.FramesDistinct
  trajectory : s.viewer.trajectory.IsProper
  feeds : s.bus.Feeds (s.id, .relations) tree handle
  root : (s.bus.treeAt tree).link? s.viewer.settings.worldFrame = none

/-- A viewer that has seen nothing, at outputs where only an empty frame tree listens. -/
noncomputable def Station.fresh {ρ : Type} (names : Settings ℝ) : Station ℝ ρ where
  id := 0
  viewer := .start names
  bus := Bus.attachTree 0 (0, .relations)
    { channels := fun a => { topic := names.topic a.2 }, script := fun _ => [], trees := [{}] }
  wallClock := 0

theorem Station.ready_fresh {ρ : Type} {names : Settings ℝ} (h : names.FramesDistinct) :
    (fresh names : Station ℝ ρ).Ready 0 0 where
  distinct := h
  trajectory := Trajectory.isProper_start _
  feeds := Bus.feeds_attachTree (by simp) (by simp)
  root := rfl

/-- Settings with short names. -/
noncomputable def Settings.short : Settings ℝ :=
  ⟨"imu", "lidar", "odom", "world", fun _ => "", 1, 1, 1⟩

theorem Settings.framesDistinct_short : short.FramesDistinct := by
  simp [FramesDistinct, short]

theorem Station.ready_fresh_short : (fresh .short : Station ℝ Empty).Ready 0 0 :=
  ready_fresh Settings.framesDistinct_short

/-! ## Relations -/

namespace FrameRelation

variable {K : Type} {names : Settings K}

/-- The frame that a relation starts from. -/
def parent (names : Settings K) : FrameRelation → String
  | odomToImu => names.odomFrame
  | imuToLidar => names.imuFrame
  | worldToOdom => names.worldFrame

/-- The frame that a relation leads to. -/
def child (names : Settings K) : FrameRelation → String
  | odomToImu => names.imuFrame
  | imuToLidar => names.lidarFrame
  | worldToOdom => names.odomFrame

theorem child_injective (h : names.FramesDistinct) {r r' : FrameRelation}
    (hchild : r.child names = r'.child names) : r = r' := by
  obtain ⟨_, _, _, _, _, _⟩ := h.ne
  cases r <;> cases r' <;> simp_all [child]

theorem child_ne_world (h : names.FramesDistinct) (r : FrameRelation) :
    names.worldFrame ≠ r.child names := by
  obtain ⟨_, _, _, _, _, _⟩ := h.ne
  cases r <;> simp_all [child, eq_comm]

end FrameRelation

namespace FrameRun

variable {ρ : Type} {f : EstimationFrame ℝ} {run : FrameRun ℝ ρ} {tree handle : Nat}

/-- The frame has read a proper anchor, and its pose in the world goes with it. -/
structure Read (f : EstimationFrame ℝ) (run : FrameRun ℝ ρ) : Prop where
  anchor : run.anchor.IsProper
  worldPose : run.worldPose = run.anchor.compose f.pose

/-- The messages that a step tells, on which outputs. The odometry and the pose in the world may be
withheld, but not while someone listens who stays. -/
def Tells (f : EstimationFrame ℝ) (run : FrameRun ℝ ρ) :
    FrameStep → List (Address × Message ℝ) → Prop
  | .scan, told => told = [] ∨ told = [((run.station.id, .points), .cloud
      (.pack (run.station.viewer.settings.frameName f.frame) f.stamp f.points))]
  | .relation r, told => ∃ m, told = [((run.station.id, .relations), .relation m)] ∧
      m.Tells (run.relationOf f r).1 (run.relationOf f r).2.1 f.stamp (run.relationOf f r).2.2
  | .odometry, told =>
    (told = [] ∧ ¬ run.station.bus.Keeps (run.station.id, .odometry)) ∨
      ∃ m, told = [((run.station.id, .odometry), .odometry m)] ∧
        m.Tells run.station.viewer.settings.odomFrame run.station.viewer.settings.imuFrame f.stamp
          f.pose
  | .pose, told =>
    (told = [] ∧ ¬ run.station.bus.Keeps (run.station.id, .pose)) ∨
      ∃ m, told = [((run.station.id, .pose), .pose m)] ∧
        m.Tells run.station.viewer.settings.worldFrame f.stamp (run.anchor.compose f.pose)
  | .sample, told | .report, told => told = []

/-- The steps `done` of a frame lead from one run to another, whatever corrections happen between
them. -/
structure Advance (f : EstimationFrame ℝ) (tree handle : Nat) (done : List FrameStep)
    (run run' : FrameRun ℝ ρ) : Prop where
  ready : run'.station.Ready tree handle
  id : run'.station.id = run.station.id
  settings : run'.station.viewer.settings = run.station.viewer.settings
  anchor : run'.anchor = run.anchor
  worldPose : run'.worldPose = run.worldPose
  keeps : ∀ a, run.station.bus.Keeps a → run'.station.bus.Keeps a
  told : ∃ told, List.Forall₂ (run.Tells f) done told ∧
    run'.station.bus.sent = run.station.bus.sent ++ told.flatten
  links : ∀ r, .relation r ∈ done → (run'.station.bus.treeAt tree).link? (run.relationOf f r).2.1 =
    some ⟨(run.relationOf f r).1, f.stamp, (run.relationOf f r).2.2⟩
  others : ∀ frame, (∀ r, .relation r ∈ done → frame ≠ (run.relationOf f r).2.1) →
    (run'.station.bus.treeAt tree).link? frame = (run.station.bus.treeAt tree).link? frame

/-! ## Relations of a frame -/

theorem relationOf_parent (f : EstimationFrame ℝ) (run : FrameRun ℝ ρ) (r : FrameRelation) :
    (run.relationOf f r).1 = r.parent run.station.viewer.settings := by
  cases r <;> rfl

theorem relationOf_child (f : EstimationFrame ℝ) (run : FrameRun ℝ ρ) (r : FrameRelation) :
    (run.relationOf f r).2.1 = r.child run.station.viewer.settings := by
  cases r <;> rfl

theorem relationOf_child_injective (hs : run.station.viewer.settings.FramesDistinct)
    {r r' : FrameRelation} (h : (run.relationOf f r).2.1 = (run.relationOf f r').2.1) :
    r = r' := by
  rw [relationOf_child, relationOf_child] at h
  exact FrameRelation.child_injective hs h

theorem relationOf_child_ne_world (hs : run.station.viewer.settings.FramesDistinct)
    (r : FrameRelation) : run.station.viewer.settings.worldFrame ≠ (run.relationOf f r).2.1 := by
  rw [relationOf_child]
  exact r.child_ne_world hs

theorem Read.isProper_relationOf (h : run.Read f) (hpose : f.pose.IsProper)
    (hextrinsic : f.extrinsic.IsProper) (r : FrameRelation) :
    (run.relationOf f r).2.2.IsProper := by
  cases r
  · exact hpose
  · exact hextrinsic
  · exact h.anchor

namespace Advance

variable {done more : List FrameStep} {run' run'' : FrameRun ℝ ρ}

theorem refl (h : run.station.Ready tree handle) : Advance f tree handle [] run run where
  ready := h
  id := rfl
  settings := rfl
  anchor := rfl
  worldPose := rfl
  keeps _ hk := hk
  told := ⟨[], .nil, by simp⟩
  links := by simp
  others _ _ := rfl

theorem relationOf (h : Advance f tree handle done run run') (r : FrameRelation) :
    run'.relationOf f r = run.relationOf f r := by
  cases r <;> simp [FrameRun.relationOf, h.settings, h.anchor]

theorem read (h : Advance f tree handle done run run') (hread : run.Read f) : run'.Read f :=
  ⟨h.anchor ▸ hread.anchor, by rw [h.worldPose, h.anchor, hread.worldPose]⟩

/-- What a later run tells, the earlier one tells: it has read the same, and has the same listeners
that stay. -/
theorem tells (h : Advance f tree handle done run run') {step : FrameStep}
    {told : List (Address × Message ℝ)} (htold : run'.Tells f step told) :
    run.Tells f step told := by
  cases step with
  | relation r => simpa only [Tells, h.relationOf, h.id] using htold
  | odometry =>
    rcases htold with ⟨rfl, hleft⟩ | hm
    · exact .inl ⟨rfl, fun hk => hleft (h.id ▸ h.keeps _ hk)⟩
    · simp only [h.settings, h.id] at hm
      exact .inr hm
  | pose =>
    rcases htold with ⟨rfl, hleft⟩ | hm
    · exact .inl ⟨rfl, fun hk => hleft (h.id ▸ h.keeps _ hk)⟩
    · simp only [h.settings, h.id, h.anchor] at hm
      exact .inr hm
  | scan => simpa only [Tells, h.settings, h.id] using htold
  | sample | report => exact htold

theorem trans (h : Advance f tree handle done run run')
    (g : Advance f tree handle more run' run'') :
    Advance f tree handle (done ++ more) run run'' where
  ready := g.ready
  id := g.id.trans h.id
  settings := g.settings.trans h.settings
  anchor := g.anchor.trans h.anchor
  worldPose := g.worldPose.trans h.worldPose
  keeps a hk := g.keeps a (h.keeps a hk)
  told := by
    obtain ⟨told, htold, hsent⟩ := h.told
    obtain ⟨told', htold', hsent'⟩ := g.told
    refine ⟨told ++ told', List.rel_append htold (htold'.imp fun _ _ => h.tells), ?_⟩
    rw [hsent', hsent, List.flatten_append, List.append_assoc]
  links r hr := by
    by_cases hmore : .relation r ∈ more
    · simpa only [h.relationOf] using g.links r hmore
    · have hdone : .relation r ∈ done := (List.mem_append.mp hr).resolve_right hmore
      have hdistinct : run.station.viewer.settings.FramesDistinct := h.settings ▸ h.ready.distinct
      rw [g.others, h.links r hdone]
      intro r' hr' hchild
      rw [h.relationOf] at hchild
      exact hmore (relationOf_child_injective hdistinct hchild ▸ hr')
  others frame hframe := by
    rw [g.others frame, h.others frame]
    · exact fun r hr => hframe r (List.mem_append_left _ hr)
    · intro r hr
      rw [h.relationOf]
      exact hframe r (List.mem_append_right _ hr)

/-! ### One step -/

theorem of_correction (h : run.station.Ready tree handle) (stamp : ℝ) {T : Pose ℝ}
    (hT : T.IsProper) :
    Advance f tree handle [] run (run.modify (Station.updateAnchor stamp T)) := by
  have htrajectory := h.trajectory.updateAnchor stamp hT
  rw [modify, Station.updateAnchor, Station.noteAll_eq]
  exact {
    ready := ⟨h.distinct, htrajectory, h.feeds.withNotices _, h.root⟩
    id := rfl
    settings := rfl
    anchor := rfl
    worldPose := rfl
    keeps := fun _ hk => hk
    told := ⟨[], .nil, by simp⟩
    links := by simp
    others := fun _ _ => rfl }

/-- A step that tells nothing, and changes at most counts and notices. -/
theorem of_quiet (h : run.station.Ready tree handle) {step : FrameStep}
    (hstep : ∀ r, step ≠ .relation r) (htold : run.Tells f step []) {s : Station ℝ ρ}
    {stats : Stats} {notices : List (Notice ℝ)}
    (hs : s = { run.station with
      viewer := { run.station.viewer with stats }, bus := { run.station.bus with notices } }) :
    Advance f tree handle [step] run { run with station := s } := by
  subst hs
  exact {
    ready := ⟨h.distinct, h.trajectory, h.feeds.withNotices _, h.root⟩
    id := rfl
    settings := rfl
    anchor := rfl
    worldPose := rfl
    keeps := fun _ hk => hk
    told := ⟨[[]], .cons htold .nil, by simp⟩
    links := by
      intro r hr
      exact absurd (List.mem_singleton.mp hr).symm (hstep r)
    others := fun _ _ => rfl }

/-- A step that tells a message which is no relation, and changes at most counts besides. -/
theorem of_message (h : run.station.Ready tree handle) {step : FrameStep}
    (hstep : ∀ r, step ≠ .relation r) {o : Output} {m : Message ℝ} (hm : ∀ t, m ≠ .relation t)
    (htold : run.Tells f step [((run.station.id, o), m)]) {s : Station ℝ ρ} {stats : Stats}
    (hs : s = { run.station with
      viewer := { run.station.viewer with stats },
      bus := run.station.bus.publish (run.station.id, o) m }) :
    Advance f tree handle [step] run { run with station := s } := by
  subst hs
  have hlink (frame : String) : ((run.station.publish o m).bus.treeAt tree).link? frame =
      (run.station.bus.treeAt tree).link? frame :=
    Bus.link?_publish (fun t ht => absurd ht (hm t)) tree
  exact {
    ready := ⟨h.distinct, h.trajectory, h.feeds.publish _ _, (hlink _).trans h.root⟩
    id := rfl
    settings := rfl
    anchor := rfl
    worldPose := rfl
    keeps := fun _ hk => hk.publish _ _
    told := ⟨[_], .cons htold .nil, Bus.sent_publish _ _ _⟩
    links := by
      intro r hr
      exact absurd (List.mem_singleton.mp hr).symm (hstep r)
    others := fun frame _ => hlink frame }

/-- A step that tells a relation. -/
theorem of_relation (h : run.station.Ready tree handle) {r : FrameRelation}
    {m : StampedTransform ℝ} (hm : m.Tells (run.relationOf f r).1 (run.relationOf f r).2.1 f.stamp
      (run.relationOf f r).2.2) :
    Advance f tree handle [.relation r] run
      (run.modify fun s => s.publish .relations (.relation m)) := by
  have hother {frame : String} (hframe : frame ≠ (run.relationOf f r).2.1) :
      ((run.station.publish .relations (.relation m)).bus.treeAt tree).link? frame =
        (run.station.bus.treeAt tree).link? frame :=
    Bus.link?_publish_of_ne (hm.child ▸ hframe) tree
  have hself : ((run.station.publish .relations (.relation m)).bus.treeAt tree).link?
      (run.relationOf f r).2.1 =
        some ⟨(run.relationOf f r).1, f.stamp, (run.relationOf f r).2.2⟩ := by
    have hlink := h.feeds.link?_publish_self hm.pose
    rwa [hm.child, Bus.linkOf, hm.header] at hlink
  have hroot := (hother (relationOf_child_ne_world h.distinct r)).trans h.root
  exact {
    ready := ⟨h.distinct, h.trajectory, h.feeds.publish _ _, hroot⟩
    id := rfl
    settings := rfl
    anchor := rfl
    worldPose := rfl
    keeps := fun _ hk => hk.publish _ _
    told := ⟨[_], .cons ⟨m, rfl, hm⟩ .nil, Bus.sent_publish _ _ _⟩
    links := by
      intro r' hr'
      obtain rfl : r' = r := by simpa using hr'
      exact hself
    others := fun frame hframe => hother (hframe r List.mem_cons_self) }

end Advance

/-- No step fails, once the anchor is read if it needs to be. -/
theorem exists_perform (h : run.station.Ready tree handle) (hpose : f.pose.IsProper)
    (hextrinsic : f.extrinsic.IsProper) {step : FrameStep} (hstep : step ≠ .sample)
    (hread : step ≠ .scan → run.Read f) :
    ∃ run', run.perform f step = (run', none) ∧ Advance f tree handle [step] run run' := by
  cases step with
  | scan =>
    refine ⟨_, rfl, ?_⟩
    simp only [modify, publishScan]
    split
    next =>
      have htold : run.Tells f .scan [((run.station.id, .points), .cloud
        (.pack (run.station.viewer.settings.frameName f.frame) f.stamp f.points))] := .inr rfl
      exact .of_message h (by simp) (by simp) htold rfl
    next =>
      have htold : run.Tells f .scan [] := .inl rfl
      exact .of_quiet h (by simp) htold rfl
  | sample => exact absurd rfl hstep
  | relation r =>
    obtain ⟨m, hm, htells⟩ := ((hread nofun).isProper_relationOf hpose hextrinsic r).exists_relation
      (run.relationOf f r).1 (run.relationOf f r).2.1 f.stamp
    refine ⟨run.modify fun s => s.publish .relations (.relation m), ?_, .of_relation h htells⟩
    simp only [perform, publishRelation, hm]
  | odometry =>
    obtain ⟨m, hm, htells⟩ := hpose.exists_odometry run.station.viewer.settings.odomFrame
      run.station.viewer.settings.imuFrame f.stamp
    simp only [perform, publishOdometry, hm]
    split
    next =>
      have htold : run.Tells f .odometry [((run.station.id, .odometry), .odometry m)] :=
        .inr ⟨m, rfl, htells⟩
      exact ⟨_, rfl, .of_message h (by simp) (by simp) htold rfl⟩
    next hheard =>
      have htold : run.Tells f .odometry [] := .inl ⟨rfl, fun hk => hheard hk.isHeard⟩
      exact ⟨_, rfl, .of_quiet h (by simp) htold rfl⟩
  | pose =>
    have hworld : run.worldPose.IsProper :=
      (hread nofun).worldPose ▸ (hread nofun).anchor.compose hpose
    obtain ⟨m, hm, htells⟩ := hworld.exists_pose run.station.viewer.settings.worldFrame f.stamp
    rw [(hread nofun).worldPose] at htells
    simp only [perform, publishPose, hm]
    split
    next =>
      have htold : run.Tells f .pose [((run.station.id, .pose), .pose m)] := .inr ⟨m, rfl, htells⟩
      exact ⟨_, rfl, .of_message h (by simp) (by simp) htold rfl⟩
    next hheard =>
      have htold : run.Tells f .pose [] := .inl ⟨rfl, fun hk => hheard hk.isHeard⟩
      exact ⟨_, rfl, .of_quiet h (by simp) htold rfl⟩
  | report =>
    have htold : run.Tells f .report [] := rfl
    exact ⟨_, rfl, .of_quiet h (by simp) htold rfl⟩

end FrameRun

end LiveMap
