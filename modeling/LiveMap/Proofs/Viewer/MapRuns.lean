import LiveMap.Proofs.Viewer.FrameSteps
import LiveMap.Proofs.Viewer.MapMoves

/-!
# Maps by their deliveries

Whatever happens between a delivery of submaps and its rebuild, every map that is published is that
of its own delivery, and the deliveries are served in their order.

## Main definitions

* `Grows`: a list of submaps goes on where another one ends.
* `mapsOf`: the maps of rounds; `Station.mapsTold`: what a viewer has told.
* `MapRun.Aligned`: the tasks that wait and the clouds that are retained fit the deliveries.

## Main statements

* `MapRun.Aligned.act`, `MapRun.Aligned.play`: a move and a run keep everything aligned.
* `MapRun.maps_told`: which maps are published, and what is in them.
-/

namespace LiveMap

variable {K ρ : Type}

/-! ## Alignment -/

theorem Rebuild.Of.reposition {r : Rebuild K} {submaps : List (Submap K)} (h : r.Of submaps)
    (origin endpoint : Submap K → Pose K) : (r.reposition origin endpoint).Of submaps := by
  refine ⟨h.poses, ?_⟩
  rw [← h.points, Rebuild.reposition, List.map_map]
  rfl

theorem Task.duty?_reposition (origin endpoint : Submap K → Pose K) (task : Task K (Rebuild K)) :
    (task.reposition origin endpoint).duty? =
      task.duty?.map (Rebuild.reposition origin endpoint) := by
  cases task <;> rfl

theorem Task.reposition_of_duty?_eq_none (origin endpoint : Submap K → Pose K)
    {task : Task K (Rebuild K)} (h : task.duty? = none) :
    task.reposition origin endpoint = task := by
  cases task with
  | job => rfl
  | duty r => simp [duty?] at h

/-- A list of submaps goes on where another one ends, with the same points up to there. -/
def Grows (submaps submaps' : List (Submap K)) : Prop :=
  submaps.map Submap.points <+: submaps'.map Submap.points

theorem Grows.clouds {submaps submaps' : List (Submap K)} (h : Grows submaps submaps') :
    submaps.map Submap.cloud <+: submaps'.map Submap.cloud := by
  have hclouds := List.IsPrefix.map NumArray.ofPoints h
  rwa [List.map_map, List.map_map] at hclouds

/-- The maps of rounds that served deliveries, one for each round that was heard. -/
def mapsOf [Scalar K] (frame : String) (rounds : List (Round K))
    (delivered : List (List (Submap K))) : List (PointCloud K) :=
  (rounds.zip delivered).filterMap fun (round, submaps) =>
    if round.heard then some (mapOf frame round.wallClock submaps) else none

theorem mapsOf_concat [Scalar K] (frame : String) {rounds : List (Round K)}
    {delivered : List (List (Submap K))} (h : rounds.length = delivered.length) (round : Round K)
    (submaps : List (Submap K)) :
    mapsOf frame (rounds ++ [round]) (delivered ++ [submaps]) = mapsOf frame rounds delivered ++
      if round.heard then [mapOf frame round.wallClock submaps] else [] := by
  rw [mapsOf, mapsOf, List.zip_append h, List.filterMap_append]
  cases hheard : round.heard <;> simp [hheard]

/-- All that a viewer has told on its output for maps. -/
def Station.mapsTold (s : Station K ρ) : List (Message K) :=
  s.bus.sent.filterMap fun p => if p.1 = (s.id, .map) then some p.2 else none

theorem Station.SameMaps.mapsTold {s s' : Station K ρ} (h : s.SameMaps s') :
    s'.mapsTold = s.mapsTold := by
  rw [Station.mapsTold, Station.mapsTold, h.sent, h.id]

theorem Task.IsPlain.duty?_eq_none {K D : Type} {task : Task K D} (h : task.IsPlain) :
    task.duty? = none := by
  cases h
  rfl

namespace MapRun

variable [Scalar K]

/-- The deliveries `done` were served by rounds, those `waiting` have their tasks in order, and the
clouds of the last one that was served are retained. -/
structure Aligned (start : MapRun K ρ) (done waiting : List (List (Submap K)))
    (rounds : List (Round K)) (run : MapRun K ρ) : Prop where
  id : run.host.surroundings.id = start.host.surroundings.id
  settings : run.host.surroundings.viewer.settings = start.host.surroundings.viewer.settings
  plain : ∀ task ∈ run.waiting, task.duty? = none → task.IsPlain
  served : List.Forall₂ (fun round submaps => round.rebuild.Of submaps) rounds done
  queued : List.Forall₂ Rebuild.Of (run.waiting.filterMap Task.duty?) waiting
  clouds : run.host.surroundings.viewer.globalMap.clouds =
    (done.getLast?.getD []).map Submap.cloud
  told : run.host.surroundings.mapsTold = start.host.surroundings.mapsTold ++
    (mapsOf start.host.surroundings.viewer.settings.worldFrame rounds done).map .cloud

namespace Aligned

variable {start run : MapRun K ρ} {done waiting : List (List (Submap K))}
  {rounds : List (Round K)}

/-- The tasks that wait may change as long as they fit the deliveries that wait. -/
theorem change (h : Aligned start done waiting rounds run) {run' : MapRun K ρ}
    (hstation : run.host.surroundings.SameMaps run'.host.surroundings)
    (hplain : ∀ task ∈ run'.waiting, task.duty? = none → task.IsPlain)
    {waiting' : List (List (Submap K))}
    (hqueued : List.Forall₂ Rebuild.Of (run'.waiting.filterMap Task.duty?) waiting') :
    Aligned start done waiting' rounds run' where
  id := hstation.id.trans h.id
  settings := hstation.settings.trans h.settings
  plain := hplain
  served := h.served
  queued := hqueued
  clouds := hstation.clouds.trans h.clouds
  told := hstation.mapsTold.trans h.told

theorem keep (h : Aligned start done waiting rounds run) {run' : MapRun K ρ}
    (hstation : run.host.surroundings.SameMaps run'.host.surroundings)
    (hwaiting : run'.waiting = run.waiting) : Aligned start done waiting rounds run' :=
  h.change hstation (hwaiting ▸ h.plain) (hwaiting ▸ h.queued)

/-- The host may submit the tasks of more deliveries, and plain tasks. -/
theorem submits (h : Aligned start done waiting rounds run) {host : ViewerHost K ρ}
    {tasks : List (Task K (Rebuild K))} (hsubmits : Host.Submits tasks run.host host)
    (hplain : ∀ task ∈ tasks, task.duty? = none → task.IsPlain)
    {more : List (List (Submap K))}
    (hmore : List.Forall₂ Rebuild.Of (tasks.filterMap Task.duty?) more) :
    Aligned start done (waiting ++ more) rounds { run with host } := by
  have hwaiting : ({ run with host } : MapRun K ρ).waiting = run.waiting ++ tasks := by
    rw [MapRun.waiting, MapRun.waiting, hsubmits.pending, List.append_assoc]
  refine h.change hsubmits.station ?_ ?_
  · rw [hwaiting]
    intro task htask
    rcases List.mem_append.mp htask with htask | htask
    · exact h.plain task htask
    · exact hplain task htask
  · rw [hwaiting, List.filterMap_append]
    exact List.rel_append h.queued hmore

/-- Where submaps moved, tasks still have the poses of their deliveries. -/
theorem reposition (h : Aligned start done waiting rounds run)
    (origin endpoint : Submap K → Pose K) :
    Aligned start done waiting rounds (run.act (.reposition origin endpoint)).1 := by
  have hwaiting : (run.act (.reposition origin endpoint)).1.waiting =
      run.waiting.map (Task.reposition origin endpoint) := (List.map_append).symm
  have hstation : run.host.surroundings.SameMaps
      (run.act (.reposition origin endpoint)).1.host.surroundings := ⟨rfl, rfl, rfl, rfl⟩
  refine h.change hstation ?_ ?_
  · rw [hwaiting]
    intro task htask hnone
    obtain ⟨before, hbefore, rfl⟩ := List.mem_map.mp htask
    rw [Task.duty?_reposition, Option.map_eq_none_iff] at hnone
    rw [Task.reposition_of_duty?_eq_none origin endpoint hnone]
    exact h.plain before hbefore hnone
  · have hduties : (run.waiting.map (Task.reposition origin endpoint)).filterMap Task.duty? =
        (run.waiting.filterMap Task.duty?).map (Rebuild.reposition origin endpoint) := by
      rw [List.filterMap_map, List.map_filterMap]
      exact List.filterMap_congr fun task _ => Task.duty?_reposition origin endpoint task
    rw [hwaiting, hduties, List.forall₂_map_left_iff]
    exact h.queued.imp fun r submaps hr => hr.reposition origin endpoint

/-- The clouds of the delivery that was served last begin those of the next. -/
theorem clouds_isPrefix {submaps : List (Submap K)}
    (h : Aligned start done (submaps :: waiting) rounds run)
    (hgrow : (done ++ submaps :: waiting).Pairwise Grows) :
    run.host.surroundings.viewer.globalMap.clouds <+: submaps.map Submap.cloud := by
  rw [h.clouds]
  cases hlast : done.getLast? with
  | none => exact List.nil_prefix
  | some last =>
    have hgrows : Grows last submaps := (List.pairwise_append.mp hgrow).2.2 last
      (List.mem_of_getLast? hlast) submaps List.mem_cons_self
    exact hgrows.clouds

/-- The rebuild of the next delivery performed. -/
theorem serve {r : Rebuild K} {rest : List (Task K (Rebuild K))} {submaps : List (Submap K)}
    (h : Aligned start done (submaps :: waiting) rounds run) (htaken : run.taken = .duty r :: rest)
    (hgrow : (done ++ submaps :: waiting).Pairwise Grows) :
    Aligned start (done ++ [submaps]) waiting (rounds ++ run.nextRound) run.performNext := by
  have hwaiting : run.waiting = .duty r :: (rest ++ run.host.scheduler.queue.pending) := by
    rw [MapRun.waiting, htaken, List.cons_append]
  obtain ⟨hr, hrest⟩ : r.Of submaps ∧ List.Forall₂ Rebuild.Of
      ((rest ++ run.host.scheduler.queue.pending).filterMap Task.duty?) waiting := by
    have hqueued := h.queued
    rw [hwaiting] at hqueued
    exact List.forall₂_cons.mp hqueued
  obtain ⟨hok, hid, hsettings, hclouds, hsent⟩ := Station.rebuildMap_of hr (h.clouds_isPrefix hgrow)
  have hround : run.nextRound = [⟨r, run.host.surroundings.isHeard .map,
      run.host.surroundings.wallClock⟩] := by
    rw [nextRound, htaken]
    rfl
  have hperformed : run.performNext =
      ⟨{ run.host with surroundings := (run.host.surroundings.rebuildMap r).1 }, rest⟩ := by
    rw [performNext, htaken]
    simp only [Host.runTask_duty_of_ok hok]
  rw [hround, hperformed]
  refine ⟨hid.trans h.id, hsettings.trans h.settings, fun task htask => ?_,
    List.rel_append h.served (.cons hr .nil), hrest, ?_, ?_⟩
  · refine h.plain task ?_
    rw [hwaiting]
    exact List.mem_cons_of_mem _ htask
  · rw [List.getLast?_concat]
    exact hclouds
  · rw [mapsOf_concat _ h.served.length_eq, List.map_append, ← List.append_assoc, ← h.told,
      Station.mapsTold, Station.mapsTold, hsent, hid, List.filterMap_append, ← h.settings]
    cases run.host.surroundings.isHeard .map <;> simp

/-- The next task performed: the rebuild of the next delivery, or a job. -/
theorem perform (h : Aligned start done waiting rounds run)
    (hgrow : (done ++ waiting).Pairwise Grows) :
    ∃ done' waiting', done' ++ waiting' = done ++ waiting ∧
      Aligned start done' waiting' (rounds ++ run.nextRound) run.performNext := by
  cases htaken : run.taken with
  | nil =>
    refine ⟨done, waiting, rfl, ?_⟩
    simpa [performNext, nextRound, htaken] using h
  | cons task rest =>
    have hwaiting : run.waiting = task :: (rest ++ run.host.scheduler.queue.pending) := by
      rw [MapRun.waiting, htaken, List.cons_append]
    cases task with
    | duty r =>
      have hqueued := h.queued
      rw [hwaiting] at hqueued
      obtain ⟨submaps, waiting', -, -, rfl⟩ := List.forall₂_cons_left_iff.mp hqueued
      exact ⟨done ++ [submaps], waiting', by simp, h.serve htaken hgrow⟩
    | job name work children stops fails =>
      have hjob : (Task.job name work children stops fails : Task K (Rebuild K)).IsPlain :=
        h.plain _ (by simp [hwaiting]) rfl
      have hchildren : ∀ child ∈ children, child.IsPlain := by
        cases hjob with
        | job _ _ _ _ hall => exact hall
      have hsubmits := Host.Submits.job name work children stops fails run.host
      have hround : run.nextRound = [] := by
        rw [nextRound, htaken]
        rfl
      have hperformed : run.performNext.waiting =
          rest ++ run.host.scheduler.queue.pending ++ children := by
        rw [performNext, htaken, MapRun.waiting, hsubmits.pending, List.append_assoc]
      have hstation : run.host.surroundings.SameMaps run.performNext.host.surroundings := by
        rw [performNext, htaken]
        exact hsubmits.station
      have hnone : children.filterMap Task.duty? = [] :=
        List.filterMap_eq_nil_iff.mpr fun child hchild => (hchildren child hchild).duty?_eq_none
      refine ⟨done, waiting, rfl, ?_⟩
      rw [hround, List.append_nil]
      refine h.change hstation ?_ ?_
      · rw [hperformed]
        intro task htask hduty
        rcases List.mem_append.mp htask with htask | htask
        · exact h.plain task (by rw [hwaiting]; exact List.mem_cons_of_mem _ htask) hduty
        · exact hchildren task htask
      · rw [hperformed, List.filterMap_append, hnone, List.append_nil]
        have hqueued := h.queued
        rw [hwaiting] at hqueued
        exact hqueued

/-- One move: deliveries are added behind the others, and served from the front. -/
theorem act (h : Aligned start done waiting rounds run) (m : MapMove K ρ)
    (hplain : ∀ task, m = .invoke task → task.IsPlain) (hgrow : (done ++ waiting).Pairwise Grows) :
    ∃ done' waiting', done' ++ waiting' = done ++ waiting ++ m.delivery?.toList ∧
      Aligned start done' waiting' (rounds ++ (run.act m).2) (run.act m).1 := by
  cases m with
  | update submaps =>
    cases submaps with
    | nil =>
      refine ⟨done, waiting, (List.append_nil _).symm, ?_⟩
      rw [MapRun.act, List.append_nil]
      exact h.keep ⟨rfl, rfl, rfl, rfl⟩ rfl
    | cons first rest =>
      refine ⟨done, waiting ++ [first :: rest], (List.append_assoc _ _ _).symm, ?_⟩
      rw [MapRun.act, List.append_nil]
      exact h.submits (.updateSubmaps (by simp) _) (by simp [Task.duty?])
        (.cons (Rebuild.of_ofSubmaps _) .nil)
  | perform =>
    obtain ⟨done', waiting', heq, haligned⟩ := h.perform hgrow
    exact ⟨done', waiting', by simpa [MapMove.delivery?] using heq, haligned⟩
  | reposition origin endpoint =>
    refine ⟨done, waiting, (List.append_nil _).symm, ?_⟩
    rw [MapRun.act, List.append_nil]
    exact h.reposition origin endpoint
  | invoke task =>
    have htask := hplain task rfl
    refine ⟨done, waiting, (List.append_nil _).symm, ?_⟩
    rw [MapRun.act, List.append_nil, ← List.append_nil waiting]
    refine h.submits (.submit task _) (by simp [htask]) ?_
    simp [htask.duty?_eq_none]
  | subscribe | unsubscribe | tick | take | count =>
    refine ⟨done, waiting, (List.append_nil _).symm, ?_⟩
    rw [MapRun.act, List.append_nil]
    refine h.keep ⟨rfl, rfl, rfl, rfl⟩ ?_
    simp [MapRun.waiting, Host.modify, MapRun.onBus]

/-- By induction on the moves, each of which keeps everything aligned. -/
theorem play {moves : List (MapMove K ρ)} (h : Aligned start done waiting rounds run)
    (hplain : ∀ task, .invoke task ∈ moves → task.IsPlain)
    (hgrow : (done ++ waiting ++ deliveries moves).Pairwise Grows) :
    ∃ done' waiting', done' ++ waiting' = done ++ waiting ++ deliveries moves ∧
      Aligned start done' waiting' (rounds ++ (MapRun.play moves run).2)
        (MapRun.play moves run).1 := by
  induction moves generalizing done waiting rounds run with
  | nil => exact ⟨done, waiting, (List.append_nil _).symm, by rwa [MapRun.play, List.append_nil]⟩
  | cons m moves ih =>
    have hdeliveries : deliveries (m :: moves) = m.delivery?.toList ++ deliveries moves := by
      rw [deliveries, deliveries, List.filterMap_cons]
      cases m.delivery? <;> rfl
    rw [hdeliveries, ← List.append_assoc] at hgrow ⊢
    obtain ⟨done₁, waiting₁, heq₁, haligned₁⟩ := h.act m
      (fun task htask => hplain task (htask ▸ List.mem_cons_self))
      (List.pairwise_append.mp (List.pairwise_append.mp hgrow).1).1
    obtain ⟨done₂, waiting₂, heq₂, haligned₂⟩ := ih haligned₁
      (fun task htask => hplain task (List.mem_cons_of_mem _ htask)) (heq₁ ▸ hgrow)
    refine ⟨done₂, waiting₂, heq₂.trans (heq₁ ▸ rfl), ?_⟩
    rw [MapRun.play, ← List.append_assoc]
    exact haligned₂

end Aligned

/-! ## Results -/

theorem aligned_start {start : MapRun K ρ}
    (hclouds : start.host.surroundings.viewer.globalMap.clouds = []) (hidle : start.waiting = []) :
    Aligned start [] [] [] start where
  id := rfl
  settings := rfl
  plain := by simp [hidle]
  served := .nil
  queued := by simp [hidle]
  clouds := hclouds
  told := (List.append_nil _).symm

/-- Every map that was published is that of a delivery whose rebuild was performed while someone
listened, by the poses that the delivery had. The deliveries are served in their order. -/
theorem maps_told {start : MapRun K ρ} {moves : List (MapMove K ρ)}
    (hclouds : start.host.surroundings.viewer.globalMap.clouds = []) (hidle : start.waiting = [])
    (hplain : ∀ task, .invoke task ∈ moves → task.IsPlain)
    (hgrow : (deliveries moves).Pairwise Grows) :
    List.Forall₂ (fun round submaps => round.rebuild.Of submaps) (play moves start).2
      ((deliveries moves).take (play moves start).2.length) ∧
    (play moves start).1.host.surroundings.mapsTold = start.host.surroundings.mapsTold ++
      (mapsOf start.host.surroundings.viewer.settings.worldFrame (play moves start).2
        (deliveries moves)).map .cloud ∧
    ∀ frame wallClock, ∀ submaps ∈ deliveries moves, (mapOf frame wallClock submaps).width =
      (submaps.map fun s => s.points.length).sum := by
  obtain ⟨done, waiting, heq, haligned⟩ := (aligned_start hclouds hidle).play hplain hgrow
  rw [List.nil_append, List.nil_append] at heq
  rw [List.nil_append] at haligned
  have hlength := haligned.served.length_eq
  have hzip : (play moves start).2.zip (done ++ waiting) = (play moves start).2.zip done := by
    have hsplit : ((play moves start).2 ++ []).zip (done ++ waiting) =
        (play moves start).2.zip done ++ [].zip waiting := List.zip_append hlength
    simpa using hsplit
  refine ⟨?_, ?_, fun frame wallClock submaps _ => width_mapOf frame wallClock submaps⟩
  · rw [← heq, List.take_left' hlength.symm]
    exact haligned.served
  · rw [haligned.told, ← heq, mapsOf, mapsOf, hzip]

/-- A submap of one point, at the origin of the world. -/
noncomputable def pointSubmap : Submap ℝ where
  id := 0
  origin := .identity
  endpoint := .identity
  stamp := 1
  points := [.zero]

/-- The submap after the back end has moved it by a meter. -/
noncomputable def movedSubmap : Submap ℝ := { pointSubmap with origin := ⟨.identity, ⟨1, 0, 0⟩⟩ }

/-- A fresh viewer with its scheduler. -/
noncomputable def freshMaps : MapRun ℝ Unit where
  host :=
    { scheduler := { period := 1, joinTimeout := 1, name := Scheduler.standardName }
      now := 0
      surroundings := .fresh .short }

/-- A delivery that is moved before its rebuild, one of two submaps, a failing job between them, and
a listener that comes before both are rebuilt in one iteration. -/
noncomputable def batchedDeliveries : List (MapMove ℝ Unit) :=
  [.update [pointSubmap], .reposition (fun _ => movedSubmap.origin) Submap.endpoint,
    .invoke (.job "fails" 1 [] false true), .update [movedSubmap, pointSubmap],
    .subscribe (0, .map) (.recorder ()), .take, .perform, .perform, .perform, .count 3]

/-- The first map has its submap where it was when it was delivered, and the second one has it where
it is by then. -/
theorem maps_told_batchedDeliveries :
    freshMaps.host.surroundings.viewer.globalMap.clouds = [] ∧ freshMaps.waiting = [] ∧
    (∀ task, .invoke task ∈ batchedDeliveries → task.IsPlain) ∧
    (deliveries batchedDeliveries).Pairwise Grows ∧
    (play batchedDeliveries freshMaps).2 =
      [⟨⟨[movedSubmap], [.identity]⟩, true, 0⟩,
        ⟨⟨[movedSubmap, pointSubmap], [movedSubmap.origin, .identity]⟩, true, 0⟩] ∧
    (play batchedDeliveries freshMaps).1.host.surroundings.mapsTold =
      [.cloud (.pack "world" 0 [.zero]), .cloud (.pack "world" 0 [⟨1, 0, 0⟩, .zero])] := by
  have hplain : ∀ task, .invoke task ∈ batchedDeliveries → task.IsPlain := by
    intro task htask
    obtain rfl : task = .job "fails" 1 [] false true := by simpa [batchedDeliveries] using htask
    exact .job _ _ _ _ (by simp)
  have hdeliveries : deliveries batchedDeliveries =
      [[pointSubmap], [movedSubmap, pointSubmap]] := rfl
  have hgrow : (deliveries batchedDeliveries).Pairwise Grows := by
    rw [hdeliveries]
    simp [Grows, movedSubmap]
  have hrounds : (play batchedDeliveries freshMaps).2 =
      [⟨⟨[movedSubmap], [.identity]⟩, true, 0⟩,
        ⟨⟨[movedSubmap, pointSubmap], [movedSubmap.origin, .identity]⟩, true, 0⟩] := rfl
  have hidle : freshMaps.waiting = [] := rfl
  obtain ⟨-, htold, -⟩ := maps_told rfl hidle hplain hgrow
  rw [hrounds, hdeliveries] at htold
  have hmaps : mapOf "world" 0 [pointSubmap] = .pack "world" 0 [.zero] ∧
      mapOf "world" 0 [movedSubmap, pointSubmap] = .pack "world" 0 [⟨1, 0, 0⟩, .zero] := by
    simp [mapOf, Pose.mapPoints, movedSubmap, pointSubmap, Pose.apply_zero, Pose.identity]
  rw [← hmaps.1, ← hmaps.2]
  exact ⟨rfl, hidle, hplain, hgrow, hrounds, htold⟩

end MapRun

end LiveMap
