import LiveMap.Proofs.Bus.Drawing
import LiveMap.Proofs.Viewer.MessageCounts

/-!
# Where frames stand in a scene

A scene knows its entities by paths, and whoever shows it composes what stands on the way to an
entity. A frame tree knows the same frames by the links that messages left, and climbs. Both listen
to the same relations, so that as soon as a frame was told they find the frames of the viewer in the
same places, whatever happens besides.

## Main definitions

* `FrameRelation.entity`: where a scene shows a relation.
* `Station.Lasting`: what a station keeps as long as listeners stay and no relation is told.
* `Station.Watched`: a frame tree and a scene listen to the relations of a viewer.
* `Station.watch`: a frame tree and a scene come to listen.
* `Bus.Agrees`: the tree and the scene have the same pose for a relation.
* `LiveRun.Owes`: a relation is still to be told.

## Main statements

* `Station.Lasting.act`: what lasts is kept by all moves but those that tell relations.
* `Station.watched_watch`: a frame tree and a scene can come to listen at any time.
* `Station.Watched.agrees_publish_self`: a relation that is told is one that is agreed on.
* `Station.Watched.places_agree`: where all relations are agreed on, so are all places.
* `LiveRun.Shown.act`: every relation is agreed on or owed.
* `LiveRun.scene_agrees_with_tree`: a scene and a tree find frames in the same places.
-/

namespace LiveMap

variable {K ρ : Type}

/-! ## Relations -/

namespace FrameRelation

/-- The entity of the child in a scene of the viewer. -/
def entity : FrameRelation → String
  | odomToImu => "world/odom/imu"
  | imuToLidar => "world/odom/imu/lidar"
  | worldToOdom => "world/odom"

theorem entity_injective {r r' : FrameRelation} (h : r.entity = r'.entity) : r = r' := by
  cases r <;> cases r' <;> first | rfl | exact absurd h (by decide)

theorem entity_ne_world (r : FrameRelation) : r.entity ≠ Scene.world := by
  cases r <;> decide

theorem entityIn_child {names : Settings K} (h : names.FramesDistinct) (r : FrameRelation) :
    Scene.entityIn names.paths (r.child names) = r.entity := by
  obtain ⟨_, _, himu, _, hodom, hlidar⟩ := h.ne
  cases r <;>
    simp [Scene.entityIn, Settings.paths, Scene.chainPaths, child, entity, List.lookup_cons,
      beq_false_of_ne, hlidar.symm, hodom.symm, himu.symm, Scene.world]

end FrameRelation

/-! ## What lasts -/

/-- What a station keeps as long as nobody comes or leaves and no relation is told. -/
structure Station.Lasting [Scalar K] (P : Station K ρ → Prop) : Prop where
  viewer : ∀ s viewer, viewer.settings = s.viewer.settings → P s → P { s with viewer }
  clock : ∀ s wallClock, P s → P { s with wallClock }
  notices : ∀ s notices, P s → P { s with bus := { s.bus with notices } }
  publish : ∀ o m s, (∀ t, m ≠ .relation t) → P s → P (s.publish o m)

namespace Station.Lasting

variable [Scalar K] {P : Station K ρ → Prop} {s : Station K ρ}

theorem correctAnchor (hP : Lasting P) (latest : Submap K) (h : P s) :
    P (s.correctAnchor latest) := by
  rw [Station.correctAnchor, Station.updateAnchor, noteAll_eq]
  exact hP.viewer _ _ rfl (hP.notices s _ h)

theorem rebuildMap (hP : Lasting P) (r : Rebuild K) (h : P s) : P (s.rebuildMap r).1 := by
  have hretained : P (s.retain r.submaps) := by
    rw [retain, noteAll_eq]
    exact hP.viewer _ _ rfl (hP.notices s _ h)
  rcases s.rebuildMap_cases r with ⟨-, hrebuilt⟩ | ⟨-, ⟨_, -, hrebuilt⟩ | ⟨ps, -, hrebuilt⟩⟩
  · rw [hrebuilt]
    exact hretained
  · rw [hrebuilt]
    exact hretained
  · rw [hrebuilt]
    have hmerged (globalMap : GlobalMap K) : P { s.retain r.submaps with
        viewer := { (s.retain r.submaps).viewer with globalMap } } := hP.viewer _ _ rfl hretained
    exact hP.notices _ _ (hP.viewer _ _ rfl (hP.publish .map (.cloud _) _ (by simp) (hmerged _)))

/-- By cases on the step: all but relations tell other messages, or none. -/
theorem perform (hP : Lasting P) {f : EstimationFrame K} {run : FrameRun K ρ} {step : FrameStep}
    (hrelation : ∀ r m, step = .relation r →
      StampedTransform.ofPose (run.relationOf f r).1 (run.relationOf f r).2.1 f.stamp
        (run.relationOf f r).2.2 = .ok m →
      P (run.station.publish .relations (.relation m)))
    (h : P run.station) : P (run.perform f step).1.station := by
  cases step with
  | scan =>
    have hcounted : P (run.station.count fun n => { n with frames := n.frames + 1 }) :=
      hP.viewer _ _ rfl h
    simp only [FrameRun.perform, FrameRun.modify, FrameRun.publishScan]
    split
    · exact hP.publish .points (.cloud _) _ (by simp) (hP.viewer _ _ rfl hcounted)
    · exact hcounted
  | sample => exact hP.viewer _ _ rfl h
  | relation r =>
    simp only [FrameRun.perform, FrameRun.publishRelation]
    split
    next m hm => exact hrelation r m rfl hm
    next => exact h
  | odometry =>
    simp only [FrameRun.perform, FrameRun.publishOdometry]
    split
    · split
      next m hm =>
        exact hP.viewer _ _ rfl (hP.publish .odometry (.odometry m) _ (by simp) h)
      next => exact h
    · exact h
  | pose =>
    simp only [FrameRun.perform, FrameRun.publishPose]
    split
    · split
      next m hm => exact hP.viewer _ _ rfl (hP.publish .pose (.pose m) _ (by simp) h)
      next => exact h
    · exact h
  | report => exact hP.notices _ _ h

/-- What lasts is kept in all moves where listeners come and go without harm, and where the relation
that is told does none. -/
theorem act (hP : Lasting P) {m : LiveMove K ρ} {run : LiveRun K ρ}
    (hsubscribe : ∀ a l, P { run.station with bus := run.station.bus.subscribe a l })
    (hunsubscribe : ∀ a handle, m = .map (.unsubscribe a handle) →
      P { run.station with bus := run.station.bus.unsubscribe a handle })
    (hrescript : ∀ script, m = .rescript script →
      P { run.station with bus := { run.station.bus with script } })
    (hrelation : m = .proceed → ∀ w ∈ run.front, ∀ r t, w.left.head? = some (.relation r) →
      StampedTransform.ofPose ((w.runAt run.station).relationOf w.frame r).1
        ((w.runAt run.station).relationOf w.frame r).2.1 w.frame.stamp
        ((w.runAt run.station).relationOf w.frame r).2.2 = .ok t →
      P (run.station.publish .relations (.relation t)))
    (h : P run.station) : P (run.act m).station := by
  refine LiveRun.station_act (fun _ s hs => hP.notices s _ hs) hsubscribe hunsubscribe hrescript
    hP.clock (fun _ _ latest _ s hs => hP.correctAnchor latest (hP.viewer s _ rfl hs))
    (fun r s hs => hP.rebuildMap r hs) ?_ h
  rintro hm w hw step hstep hs
  have hopen : P (w.runAt run.station).station := hs
  refine hP.perform ?_ hopen
  rintro r t rfl ht
  exact hrelation hm w hw r t hstep ht

end Station.Lasting

/-! ## Listeners -/

/-- A frame tree and a scene that listen to the relations of a viewer, by subscriptions that go by
these handles. -/
structure Watch where
  /-- The number that the outputs of the viewer go by. -/
  id : Nat
  names : Settings ℝ
  tree : Nat
  treeHandle : Nat
  scene : Nat
  sceneHandle : Nat

/-- The tree and the scene have the same pose for a relation. -/
def Bus.Agrees (watch : Watch) (r : FrameRelation) (b : Bus ℝ Address ρ) : Prop :=
  ∃ stamp T, (b.treeAt watch.tree).link? (r.child watch.names) =
      some ⟨r.parent watch.names, stamp, T⟩ ∧
    b.standingPose? r.entity = some (.ok T)

/-- The viewer has distinct frames and feeds the tree and the scene, which have put the world
nowhere. -/
structure Station.Watched (watch : Watch) (s : Station ℝ ρ) : Prop where
  id : s.id = watch.id
  settings : s.viewer.settings = watch.names
  distinct : watch.names.FramesDistinct
  feeds : s.bus.Feeds (watch.id, .relations) watch.tree watch.treeHandle
  shows : s.bus.Shows (watch.id, .relations) watch.scene watch.sceneHandle watch.names.paths
  root : (s.bus.treeAt watch.tree).link? watch.names.worldFrame = none
  still : s.bus.standing? Scene.world = none

/-- A move that ends neither subscription, and leaves no recorder that would. -/
def LiveMove.Spares (watch : Watch) : LiveMove K ρ → Prop
  | .map (.unsubscribe a handle) =>
    a = (watch.id, .relations) → handle ≠ watch.treeHandle ∧ handle ≠ watch.sceneHandle
  | .rescript script => ∀ r, .unsubscribe (watch.id, .relations) watch.treeHandle ∉ script r ∧
    .unsubscribe (watch.id, .relations) watch.sceneHandle ∉ script r
  | _ => True

namespace Station.Watched

variable {watch : Watch} {s : Station ℝ ρ} {r r' : FrameRelation} {t : StampedTransform ℝ}

theorem publish_relation (h : s.Watched watch) (ht : t.child = r.child watch.names) :
    (s.publish .relations (.relation t)).Watched watch where
  id := h.id
  settings := h.settings
  distinct := h.distinct
  feeds := h.feeds.publish _ _
  shows := h.shows.publish _ _
  root := (Bus.link?_publish_of_ne (ht ▸ r.child_ne_world h.distinct) _).trans h.root
  still := by
    refine (Bus.standing?_publish_of_ne h.shows.named ?_).trans h.still
    rw [ht, FrameRelation.entityIn_child h.distinct]
    exact r.entity_ne_world.symm

/-- A relation that is told is one that is agreed on. -/
theorem agrees_publish_self (h : s.Watched watch) {stamp : ℝ} {T : Pose ℝ}
    (ht : t.Tells (r.parent watch.names) (r.child watch.names) stamp T) :
    (s.publish .relations (.relation t)).bus.Agrees watch r := by
  have hlink := h.feeds.link?_publish_self ht.pose
  have hstanding := h.shows.standing?_publish_self t
  have hpose : Pose.ofQuaternion (.ofArray t.rotation) (.ofArray t.translation) = .ok T := ht.pose
  rw [ht.child, Bus.linkOf, ht.header] at hlink
  rw [ht.child, FrameRelation.entityIn_child h.distinct] at hstanding
  rw [Station.publish, h.id]
  refine ⟨stamp, T, hlink, ?_⟩
  rw [Bus.standingPose?, hstanding, Option.map_some, hpose]

theorem agrees_publish_of_ne (h : s.Watched watch) (ht : t.child = r.child watch.names)
    (hne : r' ≠ r) (hagrees : s.bus.Agrees watch r') :
    (s.publish .relations (.relation t)).bus.Agrees watch r' := by
  obtain ⟨stamp, T, hlink, hstanding⟩ := hagrees
  have hchild : r'.child watch.names ≠ t.child := fun hsame =>
    hne (FrameRelation.child_injective h.distinct (hsame.trans ht))
  have hentity : r'.entity ≠ Scene.entityIn watch.names.paths t.child := fun hsame =>
    hne (FrameRelation.entity_injective (hsame.trans (ht ▸ r.entityIn_child h.distinct)))
  refine ⟨stamp, T, (Bus.link?_publish_of_ne hchild _).trans hlink, ?_⟩
  rw [Bus.standingPose?, Station.publish, Bus.standing?_publish_of_ne h.shows.named hentity]
  exact hstanding

/-- What is agreed on stays so as long as no relation is told. -/
theorem lasting (agreed : FrameRelation → Prop) : Lasting fun s : Station ℝ ρ =>
    s.Watched watch ∧ ∀ r, agreed r → s.bus.Agrees watch r where
  viewer s viewer hsettings h := ⟨{ h.1 with settings := hsettings.trans h.1.settings }, h.2⟩
  clock s wallClock h := ⟨{ h.1 with }, h.2⟩
  notices s notices h :=
    ⟨{ h.1 with feeds := h.1.feeds.withNotices notices, shows := { h.1.shows with } }, h.2⟩
  publish o m s hm h := by
    have hlink (frame : String) : ((s.publish o m).bus.treeAt watch.tree).link? frame =
        (s.bus.treeAt watch.tree).link? frame :=
      Bus.link?_publish (fun t ht => absurd ht (hm t)) _
    have hstanding (path : String) : (s.publish o m).bus.standing? path = s.bus.standing? path :=
      Bus.standing?_publish h.1.shows.named fun t ht => absurd ht (hm t)
    refine ⟨⟨h.1.id, h.1.settings, h.1.distinct, h.1.feeds.publish _ _, h.1.shows.publish _ _,
      (hlink _).trans h.1.root, (hstanding _).trans h.1.still⟩, fun r hr => ?_⟩
    obtain ⟨stamp, T, hT, hdrawn⟩ := h.2 r hr
    refine ⟨stamp, T, (hlink _).trans hT, ?_⟩
    rw [Bus.standingPose?, hstanding]
    exact hdrawn

/-- Others may come. -/
theorem subscribe (h : s.Watched watch) (a : Address) (l : Listener ρ) :
    Watched watch { s with bus := s.bus.subscribe a l } :=
  { h with
    feeds := ⟨Bus.mem_live_subscribe h.feeds.subscribed a l, h.feeds.kept, h.feeds.placed⟩
    shows := ⟨Bus.mem_live_subscribe h.shows.subscribed a l, h.shows.kept, h.shows.placed,
      h.shows.named⟩ }

/-- Others may leave. -/
theorem unsubscribe (h : s.Watched watch) {a : Address} {handle : Nat}
    (hspares : (.map (.unsubscribe a handle) : LiveMove ℝ ρ).Spares watch) :
    Watched watch { s with bus := s.bus.unsubscribe a handle } := by
  have htree : (a, handle) ≠ ((watch.id, .relations), watch.treeHandle) := fun heq =>
    (hspares (congrArg Prod.fst heq)).1 (congrArg Prod.snd heq)
  have hscene : (a, handle) ≠ ((watch.id, .relations), watch.sceneHandle) := fun heq =>
    (hspares (congrArg Prod.fst heq)).2 (congrArg Prod.snd heq)
  exact { h with
    feeds := ⟨Bus.mem_live_unsubscribe h.feeds.subscribed htree, h.feeds.kept, h.feeds.placed⟩
    shows := ⟨Bus.mem_live_unsubscribe h.shows.subscribed hscene, h.shows.kept, h.shows.placed,
      h.shows.named⟩ }

theorem rescript (h : s.Watched watch) {script : ρ → List (Recorder.Act Address ρ)}
    (hspares : (.rescript script : LiveMove ℝ ρ).Spares watch) :
    Watched watch { s with bus := { s.bus with script } } :=
  { h with
    feeds := ⟨h.feeds.subscribed, fun r => (hspares r).1, h.feeds.placed⟩
    shows := ⟨h.shows.subscribed, fun r => (hspares r).2, h.shows.placed, h.shows.named⟩ }

end Station.Watched

/-- A frame tree and a scene come to listen to a viewer. -/
def Station.watch (tree scene : Nat) (points map pose : Bool) (s : Station K ρ) : Station K ρ :=
  let fed := s.bus.attachTree tree (s.id, .relations)
  let named := fed.setPaths scene s.viewer.settings.paths
  { s with bus := named.addSources scene (fun o => (s.id, o)) (Bus.sceneParts points map pose) }

/-- Whatever a viewer has done, a frame tree and a scene that have put the world nowhere can come to
listen to it, as long as no recorder makes anyone leave and other scenes know the same entities. -/
theorem Station.watched_watch {s : Station ℝ ρ} (hdistinct : s.viewer.settings.FramesDistinct)
    {tree scene : Nat} (htree : tree < s.bus.trees.length) (hscene : scene < s.bus.scenes.length)
    (hnamed : ∀ j client, s.bus.scenes[j]? = some client → j ≠ scene →
      client.scene.paths = s.viewer.settings.paths)
    (hscript : ∀ r a handle, .unsubscribe a handle ∉ s.bus.script r)
    (hroot : (s.bus.treeAt tree).link? s.viewer.settings.worldFrame = none)
    (hstill : s.bus.standing? Scene.world = none) (points map pose : Bool) :
    (s.watch tree scene points map pose).Watched
      { id := s.id
        names := s.viewer.settings
        tree := tree
        treeHandle := (s.bus.detachTree tree).nextHandle (s.id, .relations)
        scene := scene
        sceneHandle :=
          (s.bus.attachTree tree (s.id, .relations)).nextHandle (s.id, .relations) } := by
  let fed := s.bus.attachTree tree (s.id, .relations)
  let named := fed.setPaths scene s.viewer.settings.paths
  let parts := Bus.sceneParts points map pose
  obtain ⟨htrees, hscenes, hstanding, hscripts⟩ := s.bus.attachTree_quiet tree (s.id, .relations)
  obtain ⟨htrees', hstanding'⟩ := named.addSources_quiet scene (fun o => (s.id, o)) parts
  have hfeeds : fed.Feeds (s.id, .relations) tree
      ((s.bus.detachTree tree).nextHandle (s.id, .relations)) :=
    Bus.feeds_attachTree htree fun r => hscript r _ _
  have hfeedsNamed : named.Feeds (s.id, .relations) tree
      ((s.bus.detachTree tree).nextHandle (s.id, .relations)) :=
    ⟨hfeeds.subscribed, hfeeds.kept, hfeeds.placed⟩
  have hplaced : scene < named.scenes.length := by
    have hlength : named.scenes.length = fed.scenes.length := List.length_modify ..
    rw [hlength, hscenes]
    exact hscene
  have hkept : ∀ r, .unsubscribe (s.id, .relations) (named.nextHandle (s.id, .relations)) ∉
      named.script r := by
    intro r
    have hsame : named.script = s.bus.script := hscripts
    rw [hsame]
    exact hscript r _ _
  exact {
    id := rfl
    settings := rfl
    distinct := hdistinct
    feeds := hfeedsNamed.addSources scene _ parts
    shows := Bus.shows_addSources hplaced (Bus.named_setPaths (hscenes ▸ hnamed)) hkept
      (parts.drop 1)
    root := by
      rw [Station.watch, (htrees' tree).trans (htrees tree)]
      exact hroot
    still := (hstanding' Scene.world).trans ((hstanding Scene.world).trans hstill) }

/-! ## Places -/

section Places

variable {watch : Watch} {s : Station ℝ ρ}

theorem Bus.placeOf_entity {b : Bus ℝ Address ρ} {W O E : Pose ℝ}
    (hworld : b.standing? Scene.world = none)
    (hodom : b.standingPose? (FrameRelation.entity .worldToOdom) = some (.ok W))
    (himu : b.standingPose? (FrameRelation.entity .odomToImu) = some (.ok O))
    (hlidar : b.standingPose? (FrameRelation.entity .imuToLidar) = some (.ok E)) :
    b.placeOf (FrameRelation.entity .worldToOdom) = .ok W ∧
    b.placeOf (FrameRelation.entity .odomToImu) = .ok (W.compose O) ∧
    b.placeOf (FrameRelation.entity .imuToLidar) = .ok ((W.compose O).compose E) := by
  have hroot : b.standingPose? "world" = none := by
    rw [standingPose?]
    exact Option.map_eq_none_iff.mpr hworld
  have hwayOdom : Scene.wayTo "world/odom" = ["world", "world/odom"] := by decide
  have hwayImu : Scene.wayTo "world/odom/imu" = ["world", "world/odom", "world/odom/imu"] := by
    decide
  have hwayLidar : Scene.wayTo "world/odom/imu/lidar" =
      ["world", "world/odom", "world/odom/imu", "world/odom/imu/lidar"] := by decide
  simp only [FrameRelation.entity] at hodom himu hlidar ⊢
  simp [placeOf, hwayOdom, hwayImu, hwayLidar, hroot, hodom, himu, hlidar, Except.map, bind,
    Except.bind, pure, Except.pure]

/-- A scene and a tree that agree on all relations find the frames in the same places. -/
theorem Station.Watched.places_agree (h : s.Watched watch) (hagrees : ∀ r, s.bus.Agrees watch r) :
    ∃ shown, s.bus.sceneAt? watch.scene = some shown ∧
      ∀ frame ∈ [watch.names.odomFrame, watch.names.imuFrame, watch.names.lidarFrame], ∃ T,
        s.bus.placeOf (shown.entityPath frame) = .ok T ∧
        (s.bus.treeAt watch.tree).lookup watch.names.worldFrame frame = .ok T := by
  obtain ⟨_, W, hW, hodom⟩ := hagrees .worldToOdom
  obtain ⟨_, O, hO, himu⟩ := hagrees .odomToImu
  obtain ⟨_, E, hE, hlidar⟩ := hagrees .imuToLidar
  have hhangs : (s.bus.treeAt watch.tree).Hangs watch.names W O E :=
    ⟨h.root, ⟨_, hW⟩, ⟨_, hO⟩, ⟨_, hE⟩⟩
  obtain ⟨hplaceOdom, hplaceImu, hplaceLidar⟩ := Bus.placeOf_entity h.still hodom himu hlidar
  obtain ⟨shown, hshown, hpaths⟩ := h.shows.exists_scene
  have hpath (r : FrameRelation) : shown.entityPath (r.child watch.names) = r.entity := by
    rw [Scene.entityPath_eq, hpaths, FrameRelation.entityIn_child h.distinct]
  refine ⟨shown, hshown, ?_⟩
  simp only [List.forall_mem_cons, List.not_mem_nil, false_implies, implies_true, and_true]
  refine ⟨⟨W, ?_, hhangs.lookup_world_odom⟩, ⟨W.compose O, ?_, hhangs.lookup_world_imu⟩,
    ⟨(W.compose O).compose E, ?_, hhangs.lookup_world_lidar⟩⟩
  · exact (congrArg (s.bus.placeOf ·) (hpath .worldToOdom)).trans hplaceOdom
  · exact (congrArg (s.bus.placeOf ·) (hpath .odomToImu)).trans hplaceImu
  · exact (congrArg (s.bus.placeOf ·) (hpath .imuToLidar)).trans hplaceLidar

end Places

/-! ## Runs -/

/-- A frame that begins with its scan still has all relations to tell. -/
theorem OpenFrame.Sound.relation_mem_of_scan {w : OpenFrame ℝ} {rest : List FrameStep}
    (h : w.Sound) (hleft : w.left = .scan :: rest) (r : FrameRelation) : .relation r ∈ rest := by
  have hsuffix := h.left
  rw [hleft] at hsuffix
  obtain rfl : rest = FrameStep.all.drop 1 := by
    simpa [FrameStep.all, List.suffix_cons_iff] using hsuffix
  cases r <;> decide

namespace LiveRun

variable {watch : Watch} {counted : Nat} {run : LiveRun ℝ ρ} {m : LiveMove ℝ ρ} {r : FrameRelation}

/-- A relation is still to be told: no frame was counted since, or the front end is at one that has
it left. -/
def Owes (counted : Nat) (r : FrameRelation) (run : LiveRun ℝ ρ) : Prop :=
  run.station.viewer.stats.frames = counted ∨ ∃ w ∈ run.front, .relation r ∈ w.left

/-- No frame fails, and every relation is agreed on or owed. -/
structure Shown (watch : Watch) (counted : Nat) (run : LiveRun ℝ ρ) : Prop where
  watched : run.station.Watched watch
  anchored : run.Anchored
  sound : run.Sound
  extrinsic : ∀ w ∈ run.front, w.frame.extrinsic.IsProper
  told : ∀ r, run.station.bus.Agrees watch r ∨ run.Owes counted r

namespace Shown

theorem of_idle (hidle : run.front = none) (htrajectory : run.station.viewer.trajectory.IsProper)
    (h : run.station.Watched watch) : run.Shown watch run.station.viewer.stats.frames where
  watched := h
  anchored := ⟨htrajectory, by simp [hidle]⟩
  sound := sound_of_idle hidle
  extrinsic := by simp [hidle]
  told r := .inr (.inl rfl)

/-- The message of a relation of the frame at the front end. -/
theorem exists_relation (h : run.Shown watch counted) {w : OpenFrame ℝ} (hw : w ∈ run.front)
    (r : FrameRelation) :
    ∃ t, StampedTransform.ofPose ((w.runAt run.station).relationOf w.frame r).1
        ((w.runAt run.station).relationOf w.frame r).2.1 w.frame.stamp
        ((w.runAt run.station).relationOf w.frame r).2.2 = .ok t ∧
      t.Tells (r.parent watch.names) (r.child watch.names) w.frame.stamp
        ((w.runAt run.station).relationOf w.frame r).2.2 := by
  have hproper : ((w.runAt run.station).relationOf w.frame r).2.2.IsProper := by
    cases r
    · exact (h.sound w hw).pose
    · exact h.extrinsic w hw
    · exact h.anchored.anchor w hw
  obtain ⟨t, ht, htells⟩ := hproper.exists_relation
    ((w.runAt run.station).relationOf w.frame r).1
    ((w.runAt run.station).relationOf w.frame r).2.1 w.frame.stamp
  have hsettings : (w.runAt run.station).station.viewer.settings = watch.names := h.watched.settings
  refine ⟨t, ht, ?_⟩
  rwa [FrameRun.relationOf_parent, FrameRun.relationOf_child, hsettings] at htells

/-- The front end goes on: no step fails. -/
theorem exists_proceed (h : run.Shown watch counted) {w : OpenFrame ℝ} {step : FrameStep}
    {rest : List FrameStep} (hfront : run.front = some w) (hleft : w.left = step :: rest) :
    ∃ after, (w.runAt run.station).perform w.frame step = (after, none) ∧
      run.proceed = { run.setStation after.station with
        front := some ⟨w.frame, rest, after.anchor, after.worldPose⟩ } := by
  have hnone := h.anchored.failure_eq_none h.sound h.extrinsic .proceed
  simp only [failure, hfront, hleft, Option.bind_some, List.head?_cons] at hnone
  cases hperform : (w.runAt run.station).perform w.frame step with
  | mk after failed =>
    rw [hperform] at hnone
    obtain rfl : failed = none := hnone
    refine ⟨after, rfl, ?_⟩
    rw [proceed_of_left hfront hleft, hperform]
    rfl

/-- What is agreed on stays so. -/
theorem agrees_act (h : run.Shown watch counted) (hspares : m.Spares watch) :
    (run.act m).station.Watched watch ∧
      ∀ r, run.station.bus.Agrees watch r → (run.act m).station.bus.Agrees watch r := by
  refine (Station.Watched.lasting fun r => run.station.bus.Agrees watch r).act
    (fun a l => ⟨h.watched.subscribe a l, fun r hr => hr⟩) ?_ ?_ ?_ ⟨h.watched, fun r hr => hr⟩
  · rintro a handle rfl
    exact ⟨h.watched.unsubscribe hspares, fun r hr => hr⟩
  · rintro script rfl
    exact ⟨h.watched.rescript hspares, fun r hr => hr⟩
  · intro _ w hw r t _ ht
    obtain ⟨t', ht', htells⟩ := h.exists_relation hw r
    obtain rfl : t' = t := Except.ok.inj (ht'.symm.trans ht)
    refine ⟨h.watched.publish_relation htells.child, fun r' hr' => ?_⟩
    by_cases hsame : r' = r
    · subst hsame
      exact h.watched.agrees_publish_self htells
    · exact h.watched.agrees_publish_of_ne htells.child hsame hr'

/-- A relation that is owed is told, or it stays owed. -/
theorem owes_act (h : run.Shown watch counted) (howes : run.Owes counted r) :
    (run.act m).station.bus.Agrees watch r ∨ (run.act m).Owes counted r := by
  rcases howes with hframes | ⟨w, hw, hmem⟩
  · by_cases hscan : m = .proceed ∧ ∃ w ∈ run.front, w.left.head? = some .scan
    · obtain ⟨rfl, w, hw, hhead⟩ := hscan
      obtain ⟨rest, hleft⟩ := List.head?_eq_some_iff.mp hhead
      obtain ⟨after, -, hproceed⟩ := h.exists_proceed hw hleft
      rw [LiveRun.act, hproceed]
      exact .inr (.inr ⟨_, rfl, (h.sound w hw).relation_mem_of_scan hleft r⟩)
    · refine .inr (.inl (viewer_act (P := fun v => v.stats.frames = counted) ?_ ?_ ?_ hframes))
      · intro submaps _ latest _ s hs
        rw [Station.correctAnchor, Station.updateAnchor, Station.noteAll_eq]
        exact hs
      · intro r s hs
        rw [(Station.SameWork.of_rebuildMap r s).frames, Station.retain, Station.noteAll_eq]
        exact hs
      · rintro rfl w hw step hstep hs
        have hother : step ≠ .scan := by
          rintro rfl
          exact hscan ⟨rfl, w, hw, hstep⟩
        rw [FrameRun.frames_perform, if_neg hother]
        exact hs
  · cases m with
    | frame f =>
      have hbusy : run.act (.frame f) = run := by
        rw [LiveRun.act, Option.mem_def.mp hw]
        rfl
      rw [hbusy]
      exact .inr (.inr ⟨w, hw, hmem⟩)
    | proceed =>
      obtain ⟨step, rest, hleft⟩ := List.exists_cons_of_ne_nil (List.ne_nil_of_mem hmem)
      obtain ⟨after, hperform, hproceed⟩ := h.exists_proceed hw hleft
      rw [LiveRun.act, hproceed]
      by_cases hstep : step = .relation r
      · subst hstep
        obtain ⟨t, ht, htells⟩ := h.exists_relation hw r
        simp only [FrameRun.perform, FrameRun.publishRelation, ht] at hperform
        obtain ⟨rfl, -⟩ := Prod.mk.inj hperform
        exact .inl (h.watched.agrees_publish_self htells)
      · rw [hleft] at hmem
        exact .inr (.inr ⟨_, rfl, (List.mem_cons.mp hmem).resolve_left (Ne.symm hstep)⟩)
    | map | rescript => exact .inr (.inr ⟨w, hw, hmem⟩)

/-- By cases on the relation: what is agreed on stays so, and what is owed is told or stays owed. -/
theorem act (h : run.Shown watch counted) (hproper : m.HasProperPoses)
    (hdelivered : m.HasProperDelivery) (hspares : m.Spares watch) :
    (run.act m).Shown watch counted where
  watched := (h.agrees_act hspares).1
  anchored := h.anchored.act h.sound hproper hdelivered
  sound := sound_act h.sound hproper.frame
  extrinsic := by
    refine frame_act (P := fun f => f.extrinsic.IsProper) h.extrinsic ?_
    rintro f rfl
    exact hproper.2
  told r := (h.told r).elim (fun hagrees => .inl ((h.agrees_act hspares).2 r hagrees)) h.owes_act

/-- By induction on the moves. -/
theorem play {moves : List (LiveMove ℝ ρ)} (h : run.Shown watch counted)
    (hmoves : ∀ m ∈ moves, m.HasProperPoses ∧ m.HasProperDelivery ∧ m.Spares watch) :
    (LiveRun.play moves run).Shown watch counted ∧
      ∀ r, run.station.bus.Agrees watch r →
        (LiveRun.play moves run).station.bus.Agrees watch r := by
  induction moves generalizing run with
  | nil => exact ⟨h, fun r hr => hr⟩
  | cons m moves ih =>
    rw [List.forall_mem_cons] at hmoves
    obtain ⟨⟨hproper, hdelivered, hspares⟩, hlater⟩ := hmoves
    obtain ⟨hplayed, hagrees⟩ := ih (h.act hproper hdelivered hspares) hlater
    exact ⟨hplayed, fun r hr => hagrees r ((h.agrees_act hspares).2 r hr)⟩

/-- Once a frame was counted and the front end is done with it, nothing is owed. -/
theorem agrees_of_counted (h : run.Shown watch counted) (hidle : run.front = none)
    (hcounted : run.station.viewer.stats.frames ≠ counted) (r : FrameRelation) :
    run.station.bus.Agrees watch r := by
  refine (h.told r).resolve_right ?_
  rintro (hframes | ⟨w, hw, -⟩)
  · exact hcounted hframes
  · simp [hidle] at hw

end Shown

/-- However frames, deliveries, rebuilds and other listeners interleave: once a frame was told, a
scene and a tree find the odometry, the IMU and the lidar in the same places. -/
theorem scene_agrees_with_tree {start : LiveRun ℝ ρ} (hidle : start.front = none)
    (htrajectory : start.station.viewer.trajectory.IsProper)
    (hwatched : start.station.Watched watch) {first later : List (LiveMove ℝ ρ)}
    (hmoves : ∀ m ∈ first ++ later, m.HasProperPoses ∧ m.HasProperDelivery ∧ m.Spares watch)
    (hdone : (play first start).front = none)
    (hframes : start.station.viewer.stats.frames <
      (play first start).station.viewer.stats.frames) :
    let s := (play (first ++ later) start).station
    ∃ shown, s.bus.sceneAt? watch.scene = some shown ∧
      ∀ frame ∈ [watch.names.odomFrame, watch.names.imuFrame, watch.names.lidarFrame], ∃ T,
        s.bus.placeOf (shown.entityPath frame) = .ok T ∧
        (s.bus.treeAt watch.tree).lookup watch.names.worldFrame frame = .ok T := by
  rw [List.forall_mem_append] at hmoves
  have hfirst := ((Shown.of_idle hidle htrajectory hwatched).play hmoves.1).1
  obtain ⟨hlater, hagrees⟩ := hfirst.play hmoves.2
  rw [play_append]
  exact hlater.watched.places_agree fun r =>
    hagrees r (hfirst.agrees_of_counted hdone hframes.ne' r)

/-- A delivery, and the first relation of another frame behind it. -/
noncomputable def underWay : List (LiveMove ℝ Empty) :=
  [.map (.update [MapRun.pointSubmap]), .frame FrameRun.frameAhead, .proceed, .proceed, .proceed]

/-- In the middle of the second frame the scene and the tree agree, too. -/
theorem scene_agrees_with_tree_underWay :
    let begun : LiveRun ℝ Empty := fresh .short [{}] [{}]
    let start := begun.setStation (begun.station.watch 0 0 true true true)
    let watch : Watch := ⟨0, .short, 0, 0, 0, 1⟩
    let told := play (wholeFrame FrameRun.frameAhead) start
    let s := (play (wholeFrame FrameRun.frameAhead ++ underWay) start).station
    start.front = none ∧ start.station.viewer.trajectory.IsProper ∧ start.station.Watched watch ∧
    (∀ m ∈ wholeFrame FrameRun.frameAhead ++ underWay,
      m.HasProperPoses ∧ m.HasProperDelivery ∧ m.Spares watch) ∧
    told.front = none ∧ start.station.viewer.stats.frames < told.station.viewer.stats.frames ∧
    ∃ shown, s.bus.sceneAt? 0 = some shown ∧ ∀ frame ∈ ["odom", "imu", "lidar"], ∃ T,
      s.bus.placeOf (shown.entityPath frame) = .ok T ∧
      (s.bus.treeAt 0).lookup "world" frame = .ok T := by
  intro begun start watch told s
  have htrajectory : start.station.viewer.trajectory.IsProper := Trajectory.isProper_start _
  have hwatched : start.station.Watched watch := by
    refine Station.watched_watch (s := begun.station) Settings.framesDistinct_short Nat.zero_lt_one
      Nat.zero_lt_one ?_ (fun r => r.elim) rfl rfl true true true
    intro j client hclient hother
    have hfirst : j < 1 := (List.getElem?_eq_some_iff.mp hclient).1
    omega
  have hmoves : ∀ m ∈ wholeFrame FrameRun.frameAhead ++ underWay,
      m.HasProperPoses ∧ m.HasProperDelivery ∧ m.Spares watch := by
    have hpoint : MapRun.pointSubmap.endpointPose.IsProper :=
      Pose.isProper_identity.compose Pose.isProper_identity
    have hahead : FrameRun.frameAhead.pose.IsProper ∧ FrameRun.frameAhead.extrinsic.IsProper :=
      ⟨Mat3.isRotation_identity, Pose.isProper_identity⟩
    simp [wholeFrame, underWay, LiveMove.HasProperPoses, LiveMove.HasProperDelivery,
      LiveMove.Spares, hpoint, hahead]
  have hplay : told = start.setStation (start.station.newFrame FrameRun.frameAhead).1 :=
    (play_newFrame FrameRun.frameAhead rfl).1
  have hdone : told.front = none := by
    rw [hplay]
    rfl
  have hframes : start.station.viewer.stats.frames < told.station.viewer.stats.frames := by
    have hcounted := (Station.viewer_newFrame FrameRun.frameAhead start.station).2
    rw [hplay]
    exact hcounted ▸ Nat.lt_succ_self _
  exact ⟨rfl, htrajectory, hwatched, hmoves, hdone, hframes,
    scene_agrees_with_tree rfl htrajectory hwatched hmoves hdone hframes⟩

end LiveRun

end LiveMap
