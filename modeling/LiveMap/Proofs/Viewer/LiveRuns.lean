import LiveMap.Proofs.Session.OwnOutputs
import LiveMap.Proofs.Viewer.MapMoves

/-!
# Viewers at work

The front end handles frames step by step, the back end delivers submaps, and the scheduler rebuilds
the map, each on a thread of its own. Whatever happens between two of their steps, every step offers
one message at most.

## Main definitions

* `LiveRun`: a viewer at work; `OpenFrame`: the frame that its front end is at.
* `LiveRun.fresh`: a viewer that has seen nothing, before anyone listens.
* `LiveMove`: what can happen to it; `LiveRun.act` and `LiveRun.play`: one move, and many.
* `LiveRun.failures`: why frames ended early.
* `LiveRun.offer`: what a move has to tell.

## Main statements

* `LiveRun.front_act`: what a move does to the front end.
* `LiveRun.play_newFrame`, `LiveRun.play_map`: whole frames and whole iterations are moves.
* `LiveRun.offered_act`, `LiveRun.told_act`: a move tells what it offers, and nothing else.
-/

namespace LiveMap

variable {K ρ : Type}

/-! ## Runs -/

/-- A frame that the front end is at: the steps that are left, and what was read when the sample of
the frame entered the trajectory. -/
structure OpenFrame (K : Type) where
  frame : EstimationFrame K
  left : List FrameStep
  anchor : Pose K
  worldPose : Pose K

/-- A viewer at work: its scheduler thread in the middle of a batch, and its front end in the middle
of a frame. -/
structure LiveRun (K ρ : Type) where
  map : MapRun K ρ
  front : Option (OpenFrame K) := none

/-- What can happen to a viewer at work. -/
inductive LiveMove (K ρ : Type) where
  /-- The front end begins a frame, unless it is at one. -/
  | frame (f : EstimationFrame K)
  /-- The front end does the next step of its frame, or is done with it when none is left. A step
  that fails ends the frame too. -/
  | proceed
  /-- Another thread works on the map, or listeners come and go. -/
  | map (m : MapMove K ρ)
  /-- Recorders change what they do when they are called. -/
  | rescript (script : ρ → List (Recorder.Act Address ρ))

namespace OpenFrame

/-- The frame, with what was read for it, at a station. -/
def runAt (w : OpenFrame K) (s : Station K ρ) : FrameRun K ρ := ⟨s, w.anchor, w.worldPose⟩

/-- A frame of which nothing is done. -/
def begin [Scalar K] (f : EstimationFrame K) : OpenFrame K :=
  ⟨f, FrameStep.all, .identity, .identity⟩

end OpenFrame

namespace LiveRun

def station (run : LiveRun K ρ) : Station K ρ := run.map.host.surroundings

def setStation (s : Station K ρ) (run : LiveRun K ρ) : LiveRun K ρ :=
  { run with map := { run.map with host := { run.map.host with surroundings := s } } }

variable [Scalar K]

/-- A viewer that has seen nothing, before anyone listens. Frame trees and scenes stand by. -/
def fresh (names : Settings K) (trees : List (TreeClient K Address))
    (scenes : List (SceneClient K Address)) : LiveRun K ρ where
  map :=
    { host :=
        { scheduler :=
            { period := names.period, joinTimeout := names.joinTimeout,
              name := Scheduler.standardName }
          now := 0
          surroundings :=
            { id := 0
              viewer := .start names
              bus :=
                { channels := fun a => { topic := names.topic a.2 }, script := fun _ => [],
                  trees, scenes }
              wallClock := 0 } } }

/-- The front end goes on with its frame. -/
def proceed (run : LiveRun K ρ) : LiveRun K ρ :=
  match run.front with
  | none => run
  | some w =>
    match w.left with
    | [] => { run with front := none }
    | step :: rest =>
      let (after, failure) := (w.runAt run.station).perform w.frame step
      let next : OpenFrame K := ⟨w.frame, rest, after.anchor, after.worldPose⟩
      { run.setStation after.station with front := if failure.isNone then some next else none }

def act (run : LiveRun K ρ) : LiveMove K ρ → LiveRun K ρ
  | .frame f => if run.front.isNone then { run with front := some (.begin f) } else run
  | .proceed => run.proceed
  | .map m => { run with map := (run.map.act m).1 }
  | .rescript script => { run with map := run.map.onBus fun b => { b with script } }

/-- Moves one after the other. -/
def play : List (LiveMove K ρ) → LiveRun K ρ → LiveRun K ρ
  | [], run => run
  | m :: moves, run => play moves (run.act m)

/-- Why the front end fails in a move, if it does. -/
def failure (run : LiveRun K ρ) : LiveMove K ρ → Option PoseError
  | .proceed => run.front.bind fun w =>
    w.left.head?.bind fun step => ((w.runAt run.station).perform w.frame step).2
  | _ => none

/-- Why frames failed in moves. -/
def failures : List (LiveMove K ρ) → LiveRun K ρ → List PoseError
  | [], _ => []
  | m :: moves, run => (run.failure m).toList ++ failures moves (run.act m)

theorem play_append (moves moves' : List (LiveMove K ρ)) (run : LiveRun K ρ) :
    play (moves ++ moves') run = play moves' (play moves run) := by
  induction moves generalizing run with
  | nil => rfl
  | cons m moves ih => exact ih (run.act m)

theorem failures_append (moves moves' : List (LiveMove K ρ)) (run : LiveRun K ρ) :
    failures (moves ++ moves') run = failures moves run ++ failures moves' (play moves run) := by
  induction moves generalizing run with
  | nil => rfl
  | cons m moves ih =>
    rw [List.cons_append, failures, failures, ih, List.append_assoc]
    rfl

/-! ### Whole frames and iterations -/

theorem proceed_of_left {run : LiveRun K ρ} {w : OpenFrame K} {step : FrameStep}
    {rest : List FrameStep} (hfront : run.front = some w) (hleft : w.left = step :: rest) :
    run.proceed =
      { run.setStation ((w.runAt run.station).perform w.frame step).1.station with
        front :=
          if ((w.runAt run.station).perform w.frame step).2.isNone then
            some ⟨w.frame, rest, ((w.runAt run.station).perform w.frame step).1.anchor,
              ((w.runAt run.station).perform w.frame step).1.worldPose⟩
          else none } := by
  simp only [proceed, hfront, hleft]

/-- The frame that the front end is at behind a move begins with it, or is the one before it, the
same or a step further. -/
theorem front_act {run : LiveRun K ρ} {m : LiveMove K ρ} {w : OpenFrame K}
    (h : w ∈ (run.act m).front) :
    (∃ f, m = .frame f ∧ w = .begin f) ∨ w ∈ run.front ∨
    ∃ v step after, v ∈ run.front ∧ v.left = step :: w.left ∧
      (v.runAt run.station).perform v.frame step = (after, none) ∧
      w = ⟨v.frame, w.left, after.anchor, after.worldPose⟩ := by
  cases m with
  | frame f =>
    simp only [act] at h
    split at h
    · exact .inl ⟨f, rfl, (Option.some.inj h).symm⟩
    · exact .inr (.inl h)
  | proceed =>
    cases hfront : run.front with
    | none => simp [act, proceed, hfront] at h
    | some v =>
      cases hleft : v.left with
      | nil => simp [act, proceed, hfront, hleft] at h
      | cons step rest =>
        cases hperform : (v.runAt run.station).perform v.frame step with
        | mk after failed =>
          rw [act, proceed_of_left hfront hleft, hperform] at h
          cases failed with
          | some e => cases h
          | none =>
            obtain rfl := Option.some.inj h
            exact .inr (.inr ⟨v, step, after, rfl, hleft, hperform, rfl⟩)
  | map | rescript => exact .inr (.inl h)

theorem play_idle (n : Nat) (run : LiveRun K ρ) (hidle : run.front = none) :
    play (List.replicate n .proceed) run = run ∧ failures (List.replicate n .proceed) run = [] := by
  induction n with
  | zero => exact ⟨rfl, rfl⟩
  | succ n ih =>
    have hstay : run.proceed = run := by simp only [proceed, hidle]
    have hnone : run.failure .proceed = none := by simp only [failure, hidle, Option.bind_none]
    rw [List.replicate_succ, play, failures, act, hstay, hnone]
    exact ih

/-- By induction on the steps that are left: the first that fails ends the frame. -/
theorem play_left (run : LiveRun K ρ) {w : OpenFrame K} (hfront : run.front = some w) :
    play (List.replicate (w.left.length + 1) .proceed) run =
      { run.setStation (invokeAll (FrameRun.perform w.frame) w.left (w.runAt run.station)).1.station
        with front := none } ∧
    failures (List.replicate (w.left.length + 1) .proceed) run =
      (invokeAll (FrameRun.perform w.frame) w.left (w.runAt run.station)).2.toList := by
  obtain ⟨frame, left, anchor, worldPose⟩ := w
  induction left generalizing run anchor worldPose with
  | nil =>
    have hdone : run.proceed = { run with front := none } := by simp only [proceed, hfront]
    have hnone : run.failure .proceed = none := by
      simp only [failure, hfront, Option.bind_some, List.head?_nil, Option.bind_none]
    rw [List.length_nil, List.replicate_one, play, failures, act, hdone, hnone]
    exact ⟨rfl, rfl⟩
  | cons step rest ih =>
    cases hstep : (OpenFrame.runAt ⟨frame, step :: rest, anchor, worldPose⟩ run.station).perform
      frame step with
    | mk after failed =>
      have hproceed := proceed_of_left hfront rfl
      have hfailure : run.failure .proceed = failed := by
        simp only [failure, hfront, Option.bind_some, List.head?_cons, hstep]
      rw [hstep] at hproceed
      rw [List.length_cons, List.replicate_succ, play, failures, act, hproceed, hfailure,
        invokeAll, hstep]
      cases failed with
      | none => exact ih _ after.anchor after.worldPose rfl
      | some e =>
        obtain ⟨hplay, hfailures⟩ := play_idle (rest.length + 1)
          { run.setStation after.station with front := none } rfl
        exact ⟨hplay, congrArg (e :: ·) hfailures⟩

/-- The beginning of a frame, its steps and its end. -/
def wholeFrame (f : EstimationFrame K) : List (LiveMove K ρ) :=
  .frame f :: List.replicate (FrameStep.all.length + 1) .proceed

theorem play_newFrame (f : EstimationFrame K) {run : LiveRun K ρ} (hidle : run.front = none) :
    play (wholeFrame f) run = run.setStation (run.station.newFrame f).1 ∧
      failures (wholeFrame f) run = (run.station.newFrame f).2.toList := by
  have hbegin : run.act (.frame f) = { run with front := some (.begin f) } := by
    rw [act, hidle]
    rfl
  obtain ⟨hplay, hfailures⟩ := play_left { run with front := some (.begin f) } rfl
  rw [wholeFrame, play, failures, hbegin]
  refine ⟨hplay.trans ?_, hfailures⟩
  rw [← hidle]
  rfl

/-- Moves of the map leave the front end alone; an iteration of the scheduler is such moves. -/
theorem play_map (moves : List (MapMove K ρ)) (run : LiveRun K ρ) :
    play (moves.map .map) run = { run with map := (MapRun.play moves run.map).1 } := by
  induction moves generalizing run with
  | nil => rfl
  | cons m moves ih => exact ih _

end LiveRun

/-! ## What tasks leave alone -/

namespace Host

variable {D E : Type} [Noted E K] {P : E → Prop} {h : Host K D E}

/-- Whatever notes leave alone, waiting for the scheduler leaves alone. -/
theorem surroundings_stop (hnote : ∀ n s, P s → P (note n s)) (hP : P h.surroundings)
    (timeout : Option K) : P (h.stop timeout).1.surroundings := by
  unfold stop join
  dsimp only
  split
  · exact hP
  split
  · exact hP
  split
  · exact hnote _ _ hP
  split
  · exact hnote _ _ hP
  · exact hnote _ _ (hnote _ _ hP)

variable [Titled D]

theorem surroundings_submit (hnote : ∀ n s, P s → P (note n s)) (hP : P h.surroundings)
    (task : Task K D) : P (h.submit task).surroundings := by
  unfold submit
  split
  · exact hnote _ _ hP
  · exact hP

theorem surroundings_submitAll (hnote : ∀ n s, P s → P (note n s)) (hP : P h.surroundings)
    (tasks : List (Task K D)) :
    P (tasks.foldl (fun h task => h.submit task) h).surroundings := by
  induction tasks generalizing h with
  | nil => exact hP
  | cons task rest ih => exact ih (surroundings_submit hnote hP task)

theorem surroundings_job [Add K] (hnote : ∀ n s, P s → P (note n s)) (hP : P h.surroundings)
    (duty : D → E → E × Bool) (name : String) (work : K) (children : List (Task K D))
    (stops fails : Bool) :
    P (h.runTask duty (.job name work children stops fails)).surroundings := by
  have hworked : P ({ h with started := h.started ++ [name], now := h.now + work } :
      Host K D E).surroundings := hP
  have hsubmitted := surroundings_submitAll hnote hworked children
  have hperformed : P (h.perform duty (.job name work children stops fails)).1.surroundings := by
    rw [perform_job]
    dsimp only
    split
    · exact surroundings_stop hnote hsubmitted none
    · exact hsubmitted
  rw [runTask_eq]
  split
  · exact hperformed
  · exact hnote _ _ hperformed

theorem surroundings_duty [Add K] (hnote : ∀ n s, P s → P (note n s)) {duty : D → E → E × Bool}
    {d : D} (hP : P (duty d h.surroundings).1) :
    P (h.runTask duty (.duty d)).surroundings := by
  unfold runTask perform
  dsimp only
  cases (duty d h.surroundings).2 with
  | true => exact hP
  | false => exact hnote _ _ hP

end Host

/-! ## Offers -/

variable [Scalar K] [DecidableEq ρ]

namespace FrameRun

/-- What a step of a frame has to tell, and on which output. -/
def offer (f : EstimationFrame K) (run : FrameRun K ρ) :
    FrameStep → Option (Output × Message K)
  | .scan =>
    let frame := run.station.viewer.settings.frameName f.frame
    some (.points, .cloud (.pack frame f.stamp f.points))
  | .relation r =>
    let (parent, child, T) := run.relationOf f r
    (StampedTransform.ofPose parent child f.stamp T).toOption.map fun m =>
      (.relations, .relation m)
  | .odometry =>
    let names := run.station.viewer.settings
    (Odometry.ofPose names.odomFrame names.imuFrame f.stamp f.pose).toOption.map fun m =>
      (.odometry, .odometry m)
  | .pose =>
    let names := run.station.viewer.settings
    (StampedPose.ofPose names.worldFrame f.stamp run.worldPose).toOption.map fun m =>
      (.pose, .pose m)
  | .sample | .report => none

/-- By cases on the step: it tells what it offers if that is a relation or someone listens. -/
theorem offered_perform (f : EstimationFrame K) (run : FrameRun K ρ) (step : FrameStep) :
    Bus.Offered run.station.id (run.offer f step) run.station.bus
      (run.perform f step).1.station.bus := by
  cases step with
  | scan =>
    simp only [perform, modify, publishScan]
    split
    next hheard => exact .publish (.inr hheard) _
    next hheard =>
      exact .withheld (o := .points) nofun (eq_false_of_ne_true hheard) (by simp [offer])
  | sample => exact .refl _ _
  | relation r =>
    simp only [perform, publishRelation, offer]
    split
    next m hm =>
      rw [hm]
      exact .publish (.inl rfl) _
    next e he =>
      rw [he]
      exact .refl _ _
  | odometry =>
    simp only [perform, publishOdometry, offer]
    split
    next hheard =>
      split
      next m hm =>
        rw [hm]
        exact .publish (.inr hheard) _
      next e he =>
        rw [he]
        exact .refl _ _
    next hheard =>
      exact .withheld (o := .odometry) nofun (eq_false_of_ne_true hheard) (by simp +contextual)
  | pose =>
    simp only [perform, publishPose, offer]
    split
    next hheard =>
      split
      next m hm =>
        rw [hm]
        exact .publish (.inr hheard) _
      next e he =>
        rw [he]
        exact .refl _ _
    next hheard =>
      exact .withheld (o := .pose) nofun (eq_false_of_ne_true hheard) (by simp +contextual)
  | report => exact (Bus.Offered.refl _ _).notices _

end FrameRun

namespace Station

omit [Scalar K] [DecidableEq ρ] in
/-- All that a viewer has told on an output. -/
def told (o : Output) (s : Station K ρ) : List (Message K) := s.bus.toldOn (s.id, o)

/-- What a rebuild has to tell. -/
def offerMap (r : Rebuild K) (s : Station K ρ) : Option (Output × Message K) :=
  ((s.viewer.globalMap.extend r.submaps).assemble r.poses).toOption.map fun ps =>
    (.map, .cloud (.pack s.viewer.settings.worldFrame s.wallClock ps))

omit [Scalar K] [DecidableEq ρ] in
@[simp] theorem isHeard_retain (o : Output) (submaps : List (Submap K)) (s : Station K ρ) :
    (s.retain submaps).isHeard o = s.isHeard o := by
  rw [retain, noteAll_eq]
  rfl

omit [DecidableEq ρ] in
/-- A rebuild retains clouds in any case; it counts and tells the map if there is one and it is
heard. -/
theorem rebuildMap_cases (r : Rebuild K) (s : Station K ρ) :
    (s.isHeard .map = false ∧ s.rebuildMap r = (s.retain r.submaps, true)) ∨
    (s.isHeard .map = true ∧
      ((∃ e, (s.viewer.globalMap.extend r.submaps).assemble r.poses = .error e ∧
        s.rebuildMap r = (s.retain r.submaps, false)) ∨
      ∃ ps, (s.viewer.globalMap.extend r.submaps).assemble r.poses = .ok ps ∧
        s.rebuildMap r = ((s.retain r.submaps).publishMap ps
          { s.viewer.globalMap.extend r.submaps with
            merges := (s.viewer.globalMap.extend r.submaps).merges + 1 }, true))) := by
  have hmap : (s.retain r.submaps).viewer.globalMap = s.viewer.globalMap.extend r.submaps := rfl
  unfold rebuildMap
  dsimp only
  rw [isHeard_retain, hmap, GlobalMap.merge_eq]
  cases s.isHeard .map with
  | false => exact .inl ⟨rfl, rfl⟩
  | true =>
    cases (s.viewer.globalMap.extend r.submaps).assemble r.poses with
    | error e => exact .inr ⟨rfl, .inl ⟨e, rfl, rfl⟩⟩
    | ok ps => exact .inr ⟨rfl, .inr ⟨ps, rfl, rfl⟩⟩

omit [Scalar K] in
theorem offered_retain (submaps : List (Submap K)) (s : Station K ρ) :
    Bus.Offered s.id none s.bus (s.retain submaps).bus := by
  rw [retain, noteAll_eq]
  exact (Bus.Offered.refl _ _).notices _

theorem offered_publishMap (ps : List (Vec3 K)) (globalMap : GlobalMap K) {s : Station K ρ}
    (hheard : s.isHeard .map = true) :
    Bus.Offered s.id
      (some (.map, .cloud (.pack s.viewer.settings.worldFrame s.wallClock ps)))
      s.bus (s.publishMap ps globalMap).bus :=
  (Bus.Offered.publish (.inr hheard) _).notices _

theorem offered_rebuildMap (r : Rebuild K) (s : Station K ρ) :
    Bus.Offered s.id (s.offerMap r) s.bus (s.rebuildMap r).1.bus := by
  rcases s.rebuildMap_cases r with ⟨hheard, hrebuilt⟩ |
    ⟨hheard, ⟨e, hmap, hrebuilt⟩ | ⟨ps, hmap, hrebuilt⟩⟩
  · have hwithheld : Bus.Offered s.id (s.offerMap r) s.bus s.bus :=
      .withheld (o := .map) nofun hheard (by simp +contextual [offerMap])
    rw [hrebuilt, retain, noteAll_eq]
    exact hwithheld.notices _
  · rw [hrebuilt, offerMap, hmap]
    exact offered_retain _ s
  · have hlistened := (isHeard_retain .map r.submaps s).trans hheard
    have hpublished := offered_publishMap ps { s.viewer.globalMap.extend r.submaps with
      merges := (s.viewer.globalMap.extend r.submaps).merges + 1 } hlistened
    rw [hrebuilt, offerMap, hmap]
    rw [retain, noteAll_eq] at hpublished ⊢
    exact hpublished.of_notices

end Station

namespace LiveRun

/-- What a move has to tell, and on which output. -/
def offer (run : LiveRun K ρ) : LiveMove K ρ → Option (Output × Message K)
  | .proceed => run.front.bind fun w =>
    w.left.head?.bind fun step => (w.runAt run.station).offer w.frame step
  | .map .perform => (run.map.taken.head?.bind Task.duty?).bind fun r => run.station.offerMap r
  | _ => none

theorem offered_proceed (run : LiveRun K ρ) :
    Bus.Offered run.station.id (run.offer .proceed) run.station.bus run.proceed.station.bus := by
  obtain ⟨map, front⟩ := run
  cases front with
  | none => exact .refl _ _
  | some w =>
    obtain ⟨frame, left, anchor, worldPose⟩ := w
    cases left with
    | nil => exact .refl _ _
    | cons step rest =>
      exact FrameRun.offered_perform frame ⟨map.host.surroundings, anchor, worldPose⟩ step

theorem offered_updateSubmaps (submaps : List (Submap K)) (h : ViewerHost K ρ) :
    Bus.Offered h.surroundings.id none h.surroundings.bus
      (h.updateSubmaps submaps).1.surroundings.bus := by
  unfold ViewerHost.updateSubmaps
  split
  · exact .refl _ _
  · refine Host.surroundings_submit
      (P := fun s : Station K ρ => Bus.Offered h.surroundings.id none h.surroundings.bus s.bus)
      (fun _ _ hs => hs.notices _) ?_ _
    rw [Station.correctAnchor, Station.updateAnchor, Station.noteAll_eq]
    exact (Bus.Offered.refl _ _).notices _

theorem offered_performNext (run : LiveRun K ρ) :
    Bus.Offered run.station.id (run.offer (.map .perform)) run.station.bus
      run.map.performNext.host.surroundings.bus := by
  obtain ⟨⟨host, taken⟩, front⟩ := run
  cases taken with
  | nil => exact .refl _ _
  | cons task rest =>
    cases task with
    | duty r =>
      exact Host.surroundings_duty (P := fun s : Station K ρ => Bus.Offered host.surroundings.id
        (host.surroundings.offerMap r) host.surroundings.bus s.bus)
        (fun _ _ hs => hs.notices _) (Station.offered_rebuildMap r host.surroundings)
    | job name work children stops fails =>
      exact Host.surroundings_job (P := fun s : Station K ρ =>
        Bus.Offered host.surroundings.id none host.surroundings.bus s.bus)
        (fun _ _ hs => hs.notices _) (.refl _ _) _ _ _ _ _ _

/-- Whatever happens, it tells what it offers, where it is due or heard, and nothing else. -/
theorem offered_act (run : LiveRun K ρ) (m : LiveMove K ρ) :
    Bus.Offered run.station.id (run.offer m) run.station.bus (run.act m).station.bus := by
  have hquiet := Bus.Offered.refl run.station.id run.station.bus
  cases m with
  | frame f =>
    have hsame : (run.act (.frame f)).station = run.station := by
      simp only [act]
      split <;> rfl
    rw [hsame]
    exact hquiet
  | proceed => exact run.offered_proceed
  | rescript script => exact ⟨hquiet.sent, hquiet.published, hquiet.heard⟩
  | map m =>
    cases m with
    | update submaps => exact offered_updateSubmaps submaps run.map.host
    | perform => exact run.offered_performNext
    | subscribe a l => exact .quiet rfl rfl (Bus.published_subscribe a l _)
    | unsubscribe a handle => exact .quiet rfl rfl (Bus.published_unsubscribe a handle _)
    | invoke task =>
      exact Host.surroundings_submit
        (P := fun s : Station K ρ => Bus.Offered run.station.id none run.station.bus s.bus)
        (fun _ _ hs => hs.notices _) hquiet task
    | reposition | tick | take | count => exact hquiet

omit [DecidableEq ρ] in
/-- A viewer keeps its outputs. -/
theorem id_act (run : LiveRun K ρ) (m : LiveMove K ρ) :
    (run.act m).station.id = run.station.id := by
  obtain ⟨⟨host, taken⟩, front⟩ := run
  cases m with
  | frame f =>
    simp only [act]
    split <;> rfl
  | proceed =>
    cases front with
    | none => rfl
    | some w =>
      obtain ⟨frame, left, anchor, worldPose⟩ := w
      cases left with
      | nil => rfl
      | cons step rest =>
        have htells := Station.Tells.refl (FrameRun.mk host.surroundings anchor worldPose).station
        exact (htells.perform frame step).id
  | rescript => rfl
  | map m =>
    cases m with
    | update submaps => exact (Host.Acts.updateSubmaps submaps host).station.id
    | invoke task => exact ((Host.Acts.refl host).submit task).station.id
    | perform =>
      cases taken with
      | nil => rfl
      | cons task rest => exact (Host.Acts.runTask task host).station.id
    | _ => rfl

/-- What a move has to tell is told on relations in any case, and elsewhere if someone listens. -/
theorem told_act (run : LiveRun K ρ) (m : LiveMove K ρ) (o : Output) :
    (run.act m).station.told o = run.station.told o ++
      if o = .relations ∨ run.station.isHeard o = true then Bus.offeredOn o (run.offer m)
      else [] := by
  rw [Station.told, id_act]
  exact (run.offered_act m).toldOn o

end LiveRun

end LiveMap
