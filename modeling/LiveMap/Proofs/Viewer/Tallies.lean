import LiveMap.Proofs.Viewer.OpenFrames

/-!
# Tallies

A viewer counts what it tells in its statistics, its channels count what is published on them, and
its map counts how often it was rebuilt. However frames, rebuilds and listeners interleave, the
counts agree.

## Main definitions

* `Station.Tallied`: all counts agree, after some frames and some relations.
* `Station.SameCounts`: two stations have told and counted the same.
* `FrameStep.due`: the relations that a frame still owes.
* `LiveRun.Tallied`: every frame has told three relations, but for those due and those that failed.

## Main statements

* `MapRun.surroundings_act`: what maps and listeners leave alone.
* `LiveRun.Tallied.act`, `LiveRun.Tallied.play`: a move and a run keep the counts in agreement.
-/

namespace LiveMap

variable {K ρ : Type}

/-! ## Stations -/

/-- The points that a message announces. -/
def Message.width : Message K → Int
  | .cloud m => m.width
  | _ => 0

/-- The statistics once a message was told on an output. -/
def Stats.tell (o : Output) (m : Message K) (n : Stats) : Stats :=
  match o with
  | .points => { n with pointsConverted := n.pointsConverted + m.width.toNat }
  | .odometry => { n with odometryPublished := n.odometryPublished + 1 }
  | .pose => { n with posesPublished := n.posesPublished + 1 }
  | .map => { n with mapsPublished := n.mapsPublished + 1 }
  | .relations => n

namespace Station

/-- How many messages the channel of an output has counted. -/
def published (o : Output) (s : Station K ρ) : Nat := (s.bus.channels (s.id, o)).published

/-- A viewer has counted what its channels have, after a number of frames and of relations. -/
structure Tallied (frames relations : Nat) (s : Station K ρ) : Prop where
  frames : s.viewer.stats.frames = frames
  relations : s.published .relations = relations
  sent : ∀ o, (s.told o).length = s.published o
  odometry : s.published .odometry = s.viewer.stats.odometryPublished
  pose : s.published .pose = s.viewer.stats.posesPublished
  map : s.published .map = s.viewer.stats.mapsPublished
  merges : s.viewer.globalMap.merges = s.viewer.stats.mapsPublished
  points : ((s.told .points).map Message.width).sum = s.viewer.stats.pointsConverted

/-- Two stations have told and counted the same. -/
structure SameCounts (s s' : Station K ρ) : Prop where
  stats : s'.viewer.stats = s.viewer.stats
  merges : s'.viewer.globalMap.merges = s.viewer.globalMap.merges
  told : ∀ o, s'.told o = s.told o
  published : ∀ o, s'.published o = s.published o

section Publishing

variable [Scalar K] (o : Output) (m : Message K) (s : Station K ρ) (o' : Output)

theorem published_publish :
    (s.publish o m).published o' = s.published o' + if o' = o then 1 else 0 := by
  have hpublished := Bus.published_publish (s.id, o) m s.bus (s.id, o')
  simpa [publish, published] using hpublished

theorem told_publish : (s.publish o m).told o' = s.told o' ++ if o' = o then [m] else [] := by
  have htold := Bus.toldOn_publish (s.id, o) m s.bus (s.id, o')
  simpa [publish, told] using htold

end Publishing

@[simp] theorem viewer_publish [Scalar K] (o : Output) (m : Message K) (s : Station K ρ) :
    (s.publish o m).viewer = s.viewer := rfl

@[simp] theorem published_count (f : Stats → Stats) (s : Station K ρ) (o : Output) :
    (s.count f).published o = s.published o := rfl

@[simp] theorem told_count (f : Stats → Stats) (s : Station K ρ) (o : Output) :
    (s.count f).told o = s.told o := rfl

@[simp] theorem stats_count (f : Stats → Stats) (s : Station K ρ) :
    (s.count f).viewer.stats = f s.viewer.stats := rfl

@[simp] theorem globalMap_count (f : Stats → Stats) (s : Station K ρ) :
    (s.count f).viewer.globalMap = s.viewer.globalMap := rfl

end Station

namespace Station.SameCounts

variable {s s' s'' : Station K ρ}

theorem trans (h : s.SameCounts s') (h' : s'.SameCounts s'') : s.SameCounts s'' :=
  ⟨h'.stats.trans h.stats, h'.merges.trans h.merges, fun o => (h'.told o).trans (h.told o),
    fun o => (h'.published o).trans (h.published o)⟩

/-- Nothing was told on the bus. -/
theorem of_offered [DecidableEq ρ] {bus : Bus K Address ρ}
    (h : Bus.Offered s.id none s.bus bus) : s.SameCounts { s with bus } where
  stats := rfl
  merges := rfl
  told o := by
    rw [Station.told, h.toldOn o]
    simp [Station.told, Bus.offeredOn]
  published o := h.published (s.id, o)

theorem note (n : Notice K) (s : Station K ρ) : s.SameCounts (LiveMap.note n s) :=
  ⟨rfl, rfl, fun _ => rfl, fun _ => rfl⟩

theorem retain (submaps : List (Submap K)) (s : Station K ρ) :
    s.SameCounts (s.retain submaps) := by
  rw [Station.retain, noteAll_eq]
  exact ⟨rfl, s.viewer.globalMap.merges_extend submaps, fun _ => rfl, fun _ => rfl⟩

end Station.SameCounts

namespace Station.Tallied

variable {frames relations : Nat} {s s' : Station K ρ}

theorem keep (h : s.Tallied frames relations) (hs : s.SameCounts s') :
    s'.Tallied frames relations where
  frames := by rw [hs.stats, h.frames]
  relations := by rw [hs.published, h.relations]
  sent o := by rw [hs.told, hs.published, h.sent]
  odometry := by rw [hs.published, hs.stats, h.odometry]
  pose := by rw [hs.published, hs.stats, h.pose]
  map := by rw [hs.published, hs.stats, h.map]
  merges := by rw [hs.merges, hs.stats, h.merges]
  points := by rw [hs.told, hs.stats, h.points]

variable [Scalar K]

theorem correct (h : s.Tallied frames relations) (latest : Submap K) :
    ((s.count fun n => { n with submapUpdates := n.submapUpdates + 1 }).correctAnchor
      latest).Tallied frames relations := by
  rw [correctAnchor, updateAnchor, noteAll_eq]
  exact ⟨h.frames, h.relations, h.sent, h.odometry, h.pose, h.map, h.merges, h.points⟩

/-- A message is told and counted; where it is a map, its rebuild is counted too. -/
theorem tell (h : s.Tallied frames relations) (o : Output) {m : Message K} (hm : 0 ≤ m.width)
    {globalMap : GlobalMap K}
    (hmerges : globalMap.merges = s.viewer.globalMap.merges + if o = .map then 1 else 0) :
    ((publish o m { s with viewer := { s.viewer with globalMap } }).count (Stats.tell o m)).Tallied
      frames (relations + if o = .relations then 1 else 0) := by
  have hpublished (o' : Output) :
      published o' (publish o m { s with viewer := { s.viewer with globalMap } }) =
        s.published o' + if o' = o then 1 else 0 := published_publish o m _ o'
  have htold (o' : Output) :
      told o' (publish o m { s with viewer := { s.viewer with globalMap } }) =
        s.told o' ++ if o' = o then [m] else [] := told_publish o m _ o'
  obtain ⟨hframes, hrelations, hsent, hodometry, hpose, hmap, hmerged, hpoints⟩ := h
  constructor
  case sent =>
    intro o'
    rw [told_count, published_count, htold, hpublished, List.length_append, hsent]
    split <;> rfl
  -- Each output adds to its own count, and leaves the others alone.
  all_goals cases o <;> simp_all [Stats.tell]

theorem rebuildMap (h : s.Tallied frames relations) (r : Rebuild K) :
    (s.rebuildMap r).1.Tallied frames relations := by
  have hretained := h.keep (.retain r.submaps s)
  rcases s.rebuildMap_cases r with ⟨-, hrebuilt⟩ | ⟨-, ⟨_, -, hrebuilt⟩ | ⟨ps, -, hrebuilt⟩⟩
  · rw [hrebuilt]
    exact hretained
  · rw [hrebuilt]
    exact hretained
  · have hmerges : { s.viewer.globalMap.extend r.submaps with
        merges := (s.viewer.globalMap.extend r.submaps).merges + 1 }.merges =
        (s.retain r.submaps).viewer.globalMap.merges + if Output.map = .map then 1 else 0 := rfl
    have hmap := hretained.tell .map
      (m := .cloud (.pack (s.retain r.submaps).viewer.settings.worldFrame
        (s.retain r.submaps).wallClock ps)) (Int.natCast_nonneg _) hmerges
    rw [hrebuilt]
    exact hmap.keep (.note _ _)

end Station.Tallied

/-! ## Moves of the map -/

section

variable [Scalar K] [DecidableEq ρ]

omit [DecidableEq ρ] in
/-- What a station keeps when something is noted, when listeners come and go, when the anchor is
corrected and when the map is rebuilt, it keeps whatever happens to the map. -/
theorem MapRun.surroundings_act {P : Station K ρ → Prop} {m : MapMove K ρ} {run : MapRun K ρ}
    (hnote : ∀ n s, P s → P (note n s))
    (hsubscribe : ∀ a l, P { run.host.surroundings with
      bus := run.host.surroundings.bus.subscribe a l })
    (hunsubscribe : ∀ a handle, m = .unsubscribe a handle → P { run.host.surroundings with
      bus := run.host.surroundings.bus.unsubscribe a handle })
    (htick : ∀ s wallClock, P s → P { s with wallClock })
    (hcorrect : ∀ submaps, m = .update submaps → ∀ latest ∈ submaps.getLast?, ∀ s, P s →
      P ((s.count fun n => { n with submapUpdates := n.submapUpdates + 1 }).correctAnchor latest))
    (hrebuild : ∀ r s, P s → P (s.rebuildMap r).1) (h : P run.host.surroundings) :
    P (run.act m).1.host.surroundings := by
  cases m with
  | update submaps =>
    simp only [act, ViewerHost.updateSubmaps]
    split
    · exact h
    next latest hlatest =>
      exact Host.surroundings_submit hnote (hcorrect submaps rfl latest hlatest _ h) _
  | perform =>
    obtain ⟨host, taken⟩ := run
    cases taken with
    | nil => exact h
    | cons task rest =>
      cases task with
      | duty r => exact Host.surroundings_duty hnote (hrebuild r _ h)
      | job name work children stops fails => exact Host.surroundings_job hnote h _ _ _ _ _ _
  | subscribe a l => exact hsubscribe a l
  | unsubscribe a handle => exact hunsubscribe a handle rfl
  | invoke task => exact Host.surroundings_submit hnote h task
  | tick wallClock => exact htick _ wallClock h
  | reposition | take | count => exact h

theorem Station.Tallied.act {frames relations : Nat} {run : MapRun K ρ}
    (h : run.host.surroundings.Tallied frames relations) (m : MapMove K ρ) :
    (run.act m).1.host.surroundings.Tallied frames relations :=
  MapRun.surroundings_act (P := Station.Tallied frames relations)
    (fun n s hs => hs.keep (.note n s))
    (fun a l => h.keep (.of_offered (.quiet rfl rfl (Bus.published_subscribe a l _))))
    (fun a handle _ =>
      h.keep (.of_offered (.quiet rfl rfl (Bus.published_unsubscribe a handle _))))
    (fun _ _ hs => hs.keep ⟨rfl, rfl, fun _ => rfl, fun _ => rfl⟩)
    (fun _ _ latest _ _ hs => hs.correct latest) (fun r _ hs => hs.rebuildMap r) h

end

/-! ## Frames -/

namespace FrameStep

/-- The frames that a step counts. -/
def frames : FrameStep → Nat
  | .scan => 1
  | _ => 0

/-- The relations that a step tells. -/
def relations : FrameStep → Nat
  | .relation _ => 1
  | _ => 0

/-- The relations that a frame owes that is counted and has these steps left. -/
def due (left : List FrameStep) : Nat :=
  if .scan ∈ left then 0 else (left.map relations).sum

/-- A frame owes three relations once it is counted, and one less for each that it tells. -/
theorem due_cons {step : FrameStep} {rest : List FrameStep} (h : step :: rest <:+ all) :
    due (step :: rest) + 3 * step.frames = due rest + step.relations := by
  simp only [all, List.suffix_cons_iff, List.suffix_nil, List.cons.injEq, reduceCtorEq] at h
  rcases h with ⟨rfl, rfl⟩ | ⟨rfl, rfl⟩ | ⟨rfl, rfl⟩ | ⟨rfl, rfl⟩ | ⟨rfl, rfl⟩ | ⟨rfl, rfl⟩ |
    ⟨rfl, rfl⟩ | ⟨rfl, rfl⟩ | h
  all_goals first | rfl | cases h

end FrameStep

namespace FrameRun

variable [Scalar K] {f : EstimationFrame K} {step : FrameStep} {run : FrameRun K ρ}

/-- A step that fails changes nothing. -/
theorem perform_of_failure {e : PoseError} (h : (run.perform f step).2 = some e) :
    (run.perform f step).1 = run := by
  rcases run.perform_cases f step with ⟨-, -, _, heq⟩ | ⟨-, heq⟩ | ⟨-, _, _, heq, -⟩
  · rw [heq]
  · rw [heq] at h
    cases h
  · rw [heq] at h
    cases h

theorem tallied_perform {frames relations : Nat} (h : run.station.Tallied frames relations)
    (hdone : (run.perform f step).2 = none) :
    (run.perform f step).1.station.Tallied (frames + step.frames) (relations + step.relations) := by
  cases step with
  | scan =>
    have hcounted : (run.station.count fun n => { n with frames := n.frames + 1 }).Tallied
        (frames + 1) relations :=
      ⟨congrArg (· + 1) h.frames, h.relations, h.sent, h.odometry, h.pose, h.map, h.merges,
        h.points⟩
    simp only [perform, modify, publishScan]
    split
    · exact hcounted.tell .points (m := .cloud (.pack _ f.stamp f.points))
        (Int.natCast_nonneg _) rfl
    · exact hcounted
  | sample => exact h.keep ⟨rfl, rfl, fun _ => rfl, fun _ => rfl⟩
  | relation r =>
    simp only [perform, publishRelation] at hdone ⊢
    split at hdone
    next m hm =>
      exact h.tell .relations (m := .relation m) le_rfl rfl
    next => cases hdone
  | odometry =>
    simp only [perform, publishOdometry]
    split
    · split
      next m hm => exact h.tell .odometry (m := .odometry m) le_rfl rfl
      next => exact h
    · exact h
  | pose =>
    simp only [perform, publishPose]
    split
    · split
      next m hm => exact h.tell .pose (m := .pose m) le_rfl rfl
      next => exact h
    · exact h
  | report => exact h.keep (.note _ _)

end FrameRun

/-! ## Runs -/

namespace LiveRun

section

variable [Scalar K]

/-- The relations that the frame of the front end still owes. -/
def due (run : LiveRun K ρ) : Nat := (run.front.map fun w => FrameStep.due w.left).getD 0

/-- All counts agree, and every frame that was counted has told three relations, but for those that
are still due and one for each frame that failed. -/
def Tallied (failed : Nat) (run : LiveRun K ρ) : Prop :=
  ∃ frames relations, run.station.Tallied frames relations ∧
    relations + run.due + failed = 3 * frames

/-- What holds of the frame of the front end holds of it as long as it is at that frame. -/
theorem frame_act {P : EstimationFrame K → Prop} {run : LiveRun K ρ} {m : LiveMove K ρ}
    (h : ∀ w ∈ run.front, P w.frame) (hm : ∀ f, m = .frame f → P f) :
    ∀ w ∈ (run.act m).front, P w.frame := by
  intro w hw
  rcases front_act hw with ⟨f, rfl, rfl⟩ | hsame | ⟨v, _, _, hfront, -, -, hnext⟩
  · exact hm f rfl
  · exact h w hsame
  · rw [hnext]
    exact h v hfront

end

end LiveRun

/-! ### Frames with proper poses -/

/-- The poses of a frame that begins are proper. -/
def LiveMove.HasProperPoses : LiveMove ℝ ρ → Prop
  | .frame f => f.pose.IsProper ∧ f.extrinsic.IsProper
  | _ => True

theorem LiveMove.HasProperPoses.frame {m : LiveMove ℝ ρ} (h : m.HasProperPoses) :
    m.HasProperFrame := by
  cases m with
  | frame f => exact h.1
  | proceed | map | rescript => trivial

namespace OpenFrame.Sound

variable {w : OpenFrame ℝ} {step : FrameStep} {rest : List FrameStep} {s : Station ℝ ρ}

/-- A frame with proper poses fails at its anchor only, and then it owes one relation. -/
theorem due_of_failure (h : w.Sound) (hextrinsic : w.frame.extrinsic.IsProper)
    (hleft : w.left = step :: rest) {e : PoseError}
    (hfailure : ((w.runAt s).perform w.frame step).2 = some e) :
    step = .relation .worldToOdom ∧ FrameStep.due w.left = 1 := by
  have hdone (r : FrameRelation) (hproper : ((w.runAt s).relationOf w.frame r).2.2.IsProper) :
      ((w.runAt s).perform w.frame (.relation r)).2 = none := by
    obtain ⟨m, hm, -⟩ := hproper.exists_relation ((w.runAt s).relationOf w.frame r).1
      ((w.runAt s).relationOf w.frame r).2.1 w.frame.stamp
    simp only [FrameRun.perform, FrameRun.publishRelation, hm]
  have hstep : step = .relation .worldToOdom := by
    by_contra hother
    by_cases hrelation : ∃ r, step = .relation r
    · obtain ⟨r, rfl⟩ := hrelation
      cases r with
      | odomToImu => simp [hdone .odomToImu h.pose] at hfailure
      | imuToLidar => simp [hdone .imuToLidar hextrinsic] at hfailure
      | worldToOdom => exact hother rfl
    · obtain ⟨after, hafter⟩ := h.exists_perform hleft (fun r hr => hrelation ⟨r, hr⟩) s
      simp [hafter] at hfailure
  subst hstep
  have hsuffix := h.left
  rw [hleft] at hsuffix ⊢
  obtain rfl : rest = [.odometry, .pose, .report] := by
    simpa [FrameStep.all, List.suffix_cons_iff] using hsuffix
  exact ⟨rfl, rfl⟩

end OpenFrame.Sound

namespace LiveRun

variable {run : LiveRun ℝ ρ} {failed : Nat}

theorem Tallied.proceed (h : run.Tallied failed) (hsound : run.Sound)
    (hextrinsic : ∀ w ∈ run.front, w.frame.extrinsic.IsProper) :
    run.proceed.Tallied (failed + (run.failure .proceed).toList.length) := by
  obtain ⟨frames, relations, hstation, hrelations⟩ := h
  cases hfront : run.front with
  | none =>
    refine ⟨frames, relations, ?_, ?_⟩
    · simpa [LiveRun.proceed, hfront] using hstation
    · simpa [LiveRun.proceed, failure, hfront] using hrelations
  | some w =>
    have hw := hsound w hfront
    rw [due, hfront] at hrelations
    cases hleft : w.left with
    | nil =>
      refine ⟨frames, relations, ?_, ?_⟩
      · simp only [LiveRun.proceed, hfront, hleft]
        exact hstation
      · simpa [LiveRun.proceed, failure, due, FrameStep.due, hfront, hleft] using hrelations
    | cons step rest =>
      rw [proceed_of_left hfront hleft]
      have hfailure : run.failure .proceed = ((w.runAt run.station).perform w.frame step).2 := by
        simp [failure, hfront, hleft]
      rw [hfailure]
      cases hdone : ((w.runAt run.station).perform w.frame step).2 with
      | none =>
        have hdue := FrameStep.due_cons (hleft ▸ hw.left)
        have hread : (w.runAt run.station).station.Tallied frames relations := hstation
        refine ⟨_, _, FrameRun.tallied_perform hread hdone, ?_⟩
        simp only [due, hleft, Option.map_some, Option.getD_some, Option.isNone_none, if_true,
          Option.toList_none, List.length_nil] at hrelations ⊢
        omega
      | some e =>
        obtain ⟨-, hdue⟩ := hw.due_of_failure (hextrinsic w hfront) hleft hdone
        refine ⟨frames, relations, ?_, ?_⟩
        · rw [FrameRun.perform_of_failure hdone]
          exact hstation
        · simp only [due, hdue, Option.map_some, Option.getD_some, Option.isNone_some,
            Bool.false_eq_true, if_false, Option.map_none, Option.getD_none, Option.toList_some,
            List.length_singleton] at hrelations ⊢
          omega

variable [DecidableEq ρ]

/-- By cases on the move: it counts what it tells. -/
theorem Tallied.act (h : run.Tallied failed) (hsound : run.Sound)
    (hextrinsic : ∀ w ∈ run.front, w.frame.extrinsic.IsProper) (m : LiveMove ℝ ρ) :
    (run.act m).Tallied (failed + (run.failure m).toList.length) := by
  cases m with
  | frame f =>
    obtain ⟨frames, relations, hstation, hrelations⟩ := h
    cases hfront : run.front with
    | none =>
      have hbegun : run.act (.frame f) = { run with front := some (.begin f) } := by
        rw [LiveRun.act, hfront]
        rfl
      rw [hbegun]
      refine ⟨frames, relations, hstation, ?_⟩
      simpa [due, hfront, failure, OpenFrame.begin, FrameStep.due, FrameStep.all] using hrelations
    | some w =>
      have hbusy : run.act (.frame f) = run := by
        rw [LiveRun.act, hfront]
        rfl
      rw [hbusy]
      exact ⟨frames, relations, hstation, hrelations⟩
  | proceed => exact h.proceed hsound hextrinsic
  | map m =>
    obtain ⟨frames, relations, hstation, hrelations⟩ := h
    exact ⟨frames, relations, hstation.act m, hrelations⟩
  | rescript script =>
    obtain ⟨frames, relations, hstation, hrelations⟩ := h
    exact ⟨frames, relations, hstation.keep ⟨rfl, rfl, fun _ => rfl, fun _ => rfl⟩, hrelations⟩

/-- By induction on the moves: each counts what it tells. -/
theorem Tallied.play {moves : List (LiveMove ℝ ρ)} (h : run.Tallied failed) (hsound : run.Sound)
    (hextrinsic : ∀ w ∈ run.front, w.frame.extrinsic.IsProper)
    (hproper : ∀ m ∈ moves, m.HasProperPoses) :
    (LiveRun.play moves run).Tallied (failed + (failures moves run).length) := by
  induction moves generalizing run failed with
  | nil => exact h
  | cons m moves ih =>
    rw [List.forall_mem_cons] at hproper
    have hbegun : ∀ f, m = .frame f → f.extrinsic.IsProper := by
      rintro f rfl
      exact hproper.1.2
    have hnext := frame_act (P := fun f => f.extrinsic.IsProper) hextrinsic hbegun
    rw [failures, List.length_append, ← Nat.add_assoc]
    exact ih (h.act hsound hextrinsic m) (sound_act hsound hproper.1.frame) hnext hproper.2

end LiveRun

end LiveMap
