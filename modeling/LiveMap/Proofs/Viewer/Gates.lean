import LiveMap.Proofs.Viewer.SameWork
import LiveMap.Proofs.Viewer.Tallies

/-!
# Gated outputs

Points, odometry, poses and maps are told where someone listens at the moment when it comes to them,
and nowhere else. A rebuild of fewer submaps than clouds are retained does not come to its map.

## Main definitions

* `Task.IsPaired`: rebuilds have a pose for each of their submaps.
* `LiveRun.gate`: the gated output that a move comes to.
* `MapRun.Paired`, `LiveRun.Orderly`: what gates rely on.

## Main statements

* `LiveRun.station_act`: what a station keeps, whatever happens to it.
* `LiveRun.told_gated`: what is told on gated outputs.
* `LiveRun.counts_kept_of_short`: a rebuild of too few submaps counts nothing.
-/

namespace LiveMap

variable {K ρ : Type}

/-! ## Rebuilds and their poses -/

/-- Every rebuild that a task is, or leads to, has a pose for each of its submaps. -/
inductive Task.IsPaired : Task K (Rebuild K) → Prop where
  | duty {r : Rebuild K} (h : r.poses.length = r.submaps.length) : IsPaired (.duty r)
  | job (name : String) (work : K) {children : List (Task K (Rebuild K))} (stops fails : Bool)
    (h : ∀ child ∈ children, child.IsPaired) : IsPaired (.job name work children stops fails)

namespace Task.IsPaired

theorem ofSubmaps (submaps : List (Submap K)) : IsPaired (.duty (.ofSubmaps submaps)) :=
  .duty (List.length_map _)

theorem reposition {task : Task K (Rebuild K)} (h : task.IsPaired)
    (origin endpoint : Submap K → Pose K) : (task.reposition origin endpoint).IsPaired := by
  cases h with
  | duty h => exact .duty (h.trans (List.length_map _).symm)
  | job name work stops fails h => exact .job name work stops fails h

end Task.IsPaired

/-- A rebuild comes to its map if its submaps are no fewer than the retained clouds. -/
theorem Station.offerMap_of_paired [Scalar K] {s : Station K ρ}
    (hclouds : s.viewer.globalMap.OfPoints) {r : Rebuild K}
    (hr : r.poses.length = r.submaps.length) :
    if s.viewer.globalMap.count ≤ r.submaps.length then
      ∃ message, s.offerMap r = some (.map, message)
    else s.offerMap r = none := by
  have hassemble := (hclouds.extend r.submaps).exists_assemble_iff r.poses
  rw [GlobalMap.count_extend, hr, max_le_iff] at hassemble
  rw [offerMap]
  split
  next hle =>
    obtain ⟨ps, hps⟩ := hassemble.mpr ⟨hle, le_rfl⟩
    rw [hps]
    exact ⟨_, rfl⟩
  next hlt =>
    cases hmap : (s.viewer.globalMap.extend r.submaps).assemble r.poses with
    | error e => rfl
    | ok ps => exact absurd (hassemble.mp ⟨ps, hmap⟩).1 hlt

/-! ## What gates rely on -/

section

variable [Scalar K]

namespace MapRun

/-- Every rebuild that waits has a pose for each of its submaps. -/
def Paired (run : MapRun K ρ) : Prop := ∀ task ∈ run.waiting, task.IsPaired

omit [Scalar K] in
theorem Paired.submits {host host' : ViewerHost K ρ} {taken tasks : List (Task K (Rebuild K))}
    (h : Paired ⟨host, taken⟩) (hsubmits : Host.Submits tasks host host')
    (htasks : ∀ task ∈ tasks, task.IsPaired) : Paired ⟨host', taken⟩ := by
  intro task htask
  rw [waiting, hsubmits.pending, ← List.append_assoc, List.mem_append] at htask
  exact htask.elim (h task) (htasks task)

theorem Paired.performNext {run : MapRun K ρ} (h : run.Paired) : run.performNext.Paired := by
  obtain ⟨host, taken⟩ := run
  cases taken with
  | nil => exact h
  | cons task rest =>
    have hrest : Paired ⟨host, rest⟩ := fun x hx => h x (List.mem_cons_of_mem _ hx)
    cases task with
    | duty r =>
      obtain ⟨tasksFailed, surroundings, hperformed⟩ := Host.runTask_duty Station.rebuildMap r host
      simp only [MapRun.performNext, hperformed]
      exact hrest
    | job name work children stops fails =>
      have hjob : (Task.job name work children stops fails : Task K (Rebuild K)).IsPaired :=
        h _ List.mem_cons_self
      cases hjob with
      | job _ _ _ _ hchildren =>
        exact hrest.submits (.job name work children stops fails host) hchildren

/-- By cases on the move: what waits behind it waited before, or is a delivery, or was invoked. -/
theorem Paired.act {run : MapRun K ρ} (h : run.Paired) (m : MapMove K ρ)
    (hinvoked : ∀ task, m = .invoke task → task.IsPaired) : (run.act m).1.Paired := by
  cases m with
  | update submaps =>
    cases submaps with
    | nil => exact h
    | cons first rest =>
      exact h.submits (.updateSubmaps (by simp) run.host) (by simp [Task.IsPaired.ofSubmaps])
  | invoke task => exact h.submits (.submit task run.host) (by simp [hinvoked])
  | reposition origin endpoint =>
    intro task htask
    have hmoved : task ∈ run.waiting.map (Task.reposition origin endpoint) := by
      rw [waiting, List.map_append]
      exact htask
    obtain ⟨before, hbefore, rfl⟩ := List.mem_map.mp hmoved
    exact (h before hbefore).reposition origin endpoint
  | perform => exact h.performNext
  | take =>
    intro task htask
    have hwaited : task ∈ run.taken ++ run.host.scheduler.queue.pending ++ [] := htask
    rw [List.append_nil] at hwaited
    exact h task hwaited
  | subscribe | unsubscribe | tick | count => exact h

end MapRun

/-- What a station keeps in the moves of the map and in the steps of frames, it keeps. -/
theorem LiveRun.station_act {P : Station K ρ → Prop} {m : LiveMove K ρ} {run : LiveRun K ρ}
    (hnote : ∀ n s, P s → P (note n s))
    (hsubscribe : ∀ a l, P { run.station with bus := run.station.bus.subscribe a l })
    (hunsubscribe : ∀ a handle, m = .map (.unsubscribe a handle) →
      P { run.station with bus := run.station.bus.unsubscribe a handle })
    (hrescript : ∀ script, m = .rescript script →
      P { run.station with bus := { run.station.bus with script } })
    (htick : ∀ s wallClock, P s → P { s with wallClock })
    (hcorrect : ∀ submaps, m = .map (.update submaps) → ∀ latest ∈ submaps.getLast?, ∀ s, P s →
      P ((s.count fun n => { n with submapUpdates := n.submapUpdates + 1 }).correctAnchor latest))
    (hrebuild : ∀ r s, P s → P (s.rebuildMap r).1)
    (hperform : m = .proceed → ∀ w ∈ run.front, ∀ step ∈ w.left.head?, P run.station →
      P ((w.runAt run.station).perform w.frame step).1.station)
    (h : P run.station) : P (run.act m).station := by
  cases m with
  | frame f =>
    simp only [act]
    split <;> exact h
  | proceed =>
    cases hfront : run.front with
    | none =>
      simp only [act, proceed, hfront]
      exact h
    | some w =>
      cases hleft : w.left with
      | nil =>
        simp only [act, proceed, hfront, hleft]
        exact h
      | cons step rest =>
        rw [act, proceed_of_left hfront hleft]
        exact hperform rfl w hfront step (by simp [hleft]) h
  | map m =>
    exact MapRun.surroundings_act hnote hsubscribe
      (fun a handle hm => hunsubscribe a handle (hm ▸ rfl)) htick
      (fun submaps hm => hcorrect submaps (hm ▸ rfl)) hrebuild h
  | rescript script => exact hrescript script rfl

/-- What a viewer knows changes by corrections, rebuilds and the steps of frames only. -/
theorem LiveRun.viewer_act {P : Viewer K → Prop} {m : LiveMove K ρ} {run : LiveRun K ρ}
    (hcorrect : ∀ submaps, m = .map (.update submaps) → ∀ latest ∈ submaps.getLast?,
      ∀ s : Station K ρ, P s.viewer →
        P ((s.count fun n => { n with submapUpdates := n.submapUpdates + 1 }).correctAnchor
          latest).viewer)
    (hrebuild : ∀ r (s : Station K ρ), P s.viewer → P (s.rebuildMap r).1.viewer)
    (hperform : m = .proceed → ∀ w ∈ run.front, ∀ step ∈ w.left.head?, P run.station.viewer →
      P ((w.runAt run.station).perform w.frame step).1.station.viewer)
    (h : P run.station.viewer) : P (run.act m).station.viewer :=
  station_act (P := fun s => P s.viewer) (fun _ _ hs => hs) (fun _ _ => h) (fun _ _ _ => h)
    (fun _ _ => h) (fun _ _ hs => hs) hcorrect hrebuild hperform h

theorem LiveRun.ofPoints_act {run : LiveRun K ρ} (h : run.station.viewer.globalMap.OfPoints)
    (m : LiveMove K ρ) : (run.act m).station.viewer.globalMap.OfPoints := by
  refine viewer_act (P := fun v => v.globalMap.OfPoints) ?_ ?_ ?_ h
  · intro submaps _ latest _ s hs
    rw [Station.correctAnchor, Station.updateAnchor, Station.noteAll_eq]
    exact hs
  · intro r s hs cloud hcloud
    rw [(Station.SameWork.of_rebuildMap r s).clouds] at hcloud
    exact hs.extend r.submaps cloud hcloud
  · intro _ w _ step _ hs
    rw [(FrameRun.viewer_perform w.frame (w.runAt run.station) step).1]
    exact hs

end

/-! ## Gates -/

/-- The output that a step comes to, if it is one that is told where someone listens only. -/
def FrameStep.gate? : FrameStep → Option Output
  | .scan => some .points
  | .odometry => some .odometry
  | .pose => some .pose
  | .sample | .relation _ | .report => none

/-- The gated output that a move comes to. A rebuild of fewer submaps than clouds are retained does
not come to the map. -/
def LiveRun.gate (run : LiveRun K ρ) : LiveMove K ρ → Option Output
  | .proceed => run.front.bind fun w => w.left.head?.bind FrameStep.gate?
  | .map .perform =>
    ((run.map.taken.head?.bind Task.duty?).filter fun r =>
      run.station.viewer.globalMap.count ≤ r.submaps.length).map fun _ => .map
  | _ => none

/-- A step that comes to a gated output has a message for it, and any other has one for relations at
most. -/
theorem OpenFrame.Sound.offer_cases {w : OpenFrame ℝ} {step : FrameStep} {rest : List FrameStep}
    (h : w.Sound) (hleft : w.left = step :: rest) (s : Station ℝ ρ) :
    (∃ o message, step.gate? = some o ∧ (w.runAt s).offer w.frame step = some (o, message)) ∨
    (step.gate? = none ∧ ∀ p ∈ (w.runAt s).offer w.frame step, p.1 = .relations) := by
  cases step with
  | scan => exact .inl ⟨_, _, rfl, rfl⟩
  | sample | report => exact .inr ⟨rfl, nofun⟩
  | relation r => exact .inr ⟨rfl, by simp +contextual [FrameRun.offer]⟩
  | odometry =>
    obtain ⟨m, hm, -⟩ := h.pose.exists_odometry s.viewer.settings.odomFrame
      s.viewer.settings.imuFrame w.frame.stamp
    refine .inl ⟨.odometry, .odometry m, rfl, ?_⟩
    simp only [FrameRun.offer, OpenFrame.runAt, hm]
    rfl
  | pose =>
    obtain ⟨m, hm⟩ := h.exists_pose hleft s.viewer.settings.worldFrame
    refine .inl ⟨.pose, .pose m, rfl, ?_⟩
    simp only [FrameRun.offer, OpenFrame.runAt, hm]
    rfl

/-- What gates rely on: the frame of the front end is sound, the retained clouds are lists of points
and every rebuild that waits has its poses. -/
structure LiveRun.Orderly (run : LiveRun ℝ ρ) : Prop where
  sound : run.Sound
  extrinsic : ∀ w ∈ run.front, w.frame.extrinsic.IsProper
  clouds : run.station.viewer.globalMap.OfPoints
  paired : run.map.Paired

namespace LiveRun

theorem waiting_proceed [Scalar K] (run : LiveRun K ρ) :
    run.proceed.map.waiting = run.map.waiting := by
  unfold proceed
  split
  · rfl
  · split <;> rfl

variable {run : LiveRun ℝ ρ} {m : LiveMove ℝ ρ} {moves : List (LiveMove ℝ ρ)}

namespace Orderly

theorem act (h : run.Orderly) (hproper : m.HasProperPoses)
    (hinvoked : ∀ task, m = .map (.invoke task) → task.IsPaired) : (run.act m).Orderly where
  sound := sound_act h.sound hproper.frame
  extrinsic := by
    refine frame_act (P := fun f => f.extrinsic.IsProper) h.extrinsic ?_
    rintro f rfl
    exact hproper.2
  clouds := ofPoints_act h.clouds m
  paired := by
    cases m with
    | map m => exact h.paired.act m fun task htask => hinvoked task (htask ▸ rfl)
    | proceed =>
      intro task htask
      rw [LiveRun.act, waiting_proceed] at htask
      exact h.paired task htask
    | frame f =>
      simp only [LiveRun.act]
      split <;> exact h.paired
    | rescript => exact h.paired

theorem play (h : run.Orderly) (hproper : ∀ m ∈ moves, m.HasProperPoses)
    (hinvoked : ∀ task, .map (.invoke task) ∈ moves → task.IsPaired) :
    (LiveRun.play moves run).Orderly := by
  induction moves generalizing run with
  | nil => exact h
  | cons m moves ih =>
    rw [List.forall_mem_cons] at hproper
    have hnext := h.act hproper.1 fun task htask => hinvoked task (htask ▸ List.mem_cons_self)
    exact ih hnext hproper.2 fun task htask => hinvoked task (List.mem_cons_of_mem _ htask)

theorem length_of_taken (h : run.Orderly) {r : Rebuild ℝ} {rest : List (Task ℝ (Rebuild ℝ))}
    (htaken : run.map.taken = .duty r :: rest) : r.poses.length = r.submaps.length := by
  have hnext : (Task.duty r).IsPaired := h.paired _ (by simp [MapRun.waiting, htaken])
  cases hnext with
  | duty hr => exact hr

/-- A move that comes to a gated output has a message for it, and any other has one for relations
at most. -/
theorem offer_cases (h : run.Orderly) (m : LiveMove ℝ ρ) :
    (∃ o message, run.gate m = some o ∧ run.offer m = some (o, message)) ∨
    (run.gate m = none ∧ ∀ p ∈ run.offer m, p.1 = .relations) := by
  cases m with
  | frame | rescript => exact .inr ⟨rfl, by simp [offer]⟩
  | proceed =>
    cases hfront : run.front with
    | none => exact .inr (by simp [gate, offer, hfront])
    | some w =>
      cases hleft : w.left with
      | nil => exact .inr (by simp [gate, offer, hfront, hleft])
      | cons step rest =>
        simp only [gate, offer, hfront, hleft, Option.bind_some, List.head?_cons]
        exact (h.sound w hfront).offer_cases hleft run.station
  | map m =>
    cases m with
    | perform =>
      cases htaken : run.map.taken with
      | nil => exact .inr (by simp [gate, offer, htaken])
      | cons task rest =>
        cases task with
        | job => exact .inr (by simp [gate, offer, htaken, Task.duty?])
        | duty r =>
          have hmap := Station.offerMap_of_paired h.clouds (h.length_of_taken htaken)
          simp only [gate, offer, htaken, List.head?_cons, Option.bind_some, Task.duty?,
            Option.filter_some, decide_eq_true_eq]
          split at hmap
          next hle =>
            obtain ⟨message, hmessage⟩ := hmap
            exact .inl ⟨.map, message, by simp [hle], hmessage⟩
          next hlt => exact .inr ⟨by simp [hlt], by simp [hmap]⟩
    | _ => exact .inr ⟨rfl, by simp [offer]⟩

end Orderly

variable [DecidableEq ρ] in
/-- On a gated output one message is told in a move that comes to it while someone listens, and none
is told in any other. -/
theorem told_gated (h : run.Orderly) (m : LiveMove ℝ ρ) {o : Output} (ho : o ≠ .relations) :
    if run.gate m = some o ∧ run.station.isHeard o = true then
      ∃ message, (run.act m).station.told o = run.station.told o ++ [message]
    else (run.act m).station.told o = run.station.told o := by
  rw [told_act]
  rcases h.offer_cases m with ⟨o', message, hgate, hoffer⟩ | ⟨hgate, hrelations⟩
  · rw [hgate, hoffer]
    by_cases ho' : o' = o
    · subst ho'
      by_cases hheard : run.station.isHeard o' = true
      · simp [hheard, Bus.offeredOn, Option.filter_some]
      · simp [hheard, ho]
    · simp [ho', Bus.offeredOn, Option.filter_some]
  · have hnone : Bus.offeredOn o (run.offer m) = [] := by
      cases hoffer : run.offer m with
      | none => rfl
      | some p => simp [Bus.offeredOn, Option.filter_some, hrelations p hoffer, ho.symm]
    simp [hgate, hnone]

/-- A rebuild of fewer submaps than clouds are retained tells and counts nothing. -/
theorem counts_kept_of_short (h : run.Orderly) {r : Rebuild ℝ} {rest : List (Task ℝ (Rebuild ℝ))}
    (htaken : run.map.taken = .duty r :: rest)
    (hshort : r.submaps.length < run.station.viewer.globalMap.count) :
    run.station.SameCounts (run.act (.map .perform)).station := by
  obtain ⟨⟨host, taken⟩, front⟩ := run
  obtain rfl : taken = .duty r :: rest := htaken
  have hretained := Station.SameCounts.retain r.submaps host.surroundings
  refine Host.surroundings_duty (P := host.surroundings.SameCounts)
    (fun n s hs => hs.trans (.note n s)) ?_
  rcases host.surroundings.rebuildMap_cases r with
    ⟨-, hrebuilt⟩ | ⟨-, ⟨_, -, hrebuilt⟩ | ⟨ps, hmap, -⟩⟩
  · rw [hrebuilt]
    exact hretained
  · rw [hrebuilt]
    exact hretained
  · have hcount := (GlobalMap.OfPoints.exists_assemble_iff (h.clouds.extend r.submaps) r.poses).mp
      ⟨ps, hmap⟩
    rw [GlobalMap.count_extend, h.length_of_taken rfl] at hcount
    exact absurd (le_of_max_le_left hcount) (Nat.not_le_of_lt hshort)

end LiveRun

end LiveMap
