import LiveMap.Proofs.Viewer.MapRebuild

/-!
# Mapping among other work

Submaps are delivered by one thread, and the map is rebuilt by another, later and in batches. In the
meantime submaps move, listeners come and go, and other tasks run.

## Main definitions

* `MapMove`: what can happen to a viewer that maps; `MapRun.play`: moves one after the other.
* `Round`: a rebuild that was performed, and whether its map was heard.
* `Host.Submits`: what adds tasks and leaves alone all else that maps depend on.

## Main statements

* `MapRun.play_iteration`: an iteration of the scheduler is a sequence of moves.
* `Host.Submits.updateSubmaps`, `Host.Submits.job`: a delivery and a job only add tasks.
-/

namespace LiveMap

/-! ## Runs -/

/-- A job that has no duty among its descendants. -/
inductive Task.IsPlain {K D : Type} : Task K D → Prop where
  | job (name : String) (work : K) {children : List (Task K D)} (stops fails : Bool)
    (h : ∀ child ∈ children, child.IsPlain) : IsPlain (.job name work children stops fails)

/-- The duty that a task is, if it is one. -/
def Task.duty? {K D : Type} : Task K D → Option D
  | .duty d => some d
  | .job _ _ _ _ _ => none

/-- A viewer, with the tasks that its scheduler thread has taken and not performed yet. -/
structure MapRun (K ρ : Type) where
  host : ViewerHost K ρ
  taken : List (Task K (Rebuild K)) := []

/-- A rebuild that was performed: whether anyone listened to the map, and when it was. -/
structure Round (K : Type) where
  rebuild : Rebuild K
  heard : Bool
  wallClock : K

/-- What can happen to a viewer that maps. -/
inductive MapMove (K ρ : Type) where
  /-- The back end delivers submaps. -/
  | update (submaps : List (Submap K))
  /-- The back end moves submaps, those that wait in tasks too. -/
  | reposition (origin endpoint : Submap K → Pose K)
  | subscribe (a : Address) (l : Listener ρ)
  | unsubscribe (a : Address) (handle : Nat)
  | invoke (task : Task K (Rebuild K))
  | tick (wallClock : K)
  /-- The scheduler thread takes all tasks that wait. -/
  | take
  /-- The scheduler thread performs the next task that it has taken. -/
  | perform
  /-- The scheduler thread counts an iteration. -/
  | count (tasks : Nat)

variable {K ρ : Type}

/-- A rebuild after submaps moved: it holds the submaps themselves, but copies of their poses. -/
def Rebuild.reposition (origin endpoint : Submap K → Pose K) (r : Rebuild K) : Rebuild K :=
  let moved (s : Submap K) : Submap K := { s with origin := origin s, endpoint := endpoint s }
  { r with submaps := r.submaps.map moved }

/-- A task after submaps moved. -/
def Task.reposition (origin endpoint : Submap K → Pose K) :
    Task K (Rebuild K) → Task K (Rebuild K)
  | .duty r => .duty (r.reposition origin endpoint)
  | .job name work children stops fails => .job name work children stops fails

namespace MapRun

/-- The tasks that are not performed yet, in the order in which they will be. -/
def waiting (run : MapRun K ρ) : List (Task K (Rebuild K)) :=
  run.taken ++ run.host.scheduler.queue.pending

/-- Changes the bus. -/
def onBus (f : Bus K Address ρ → Bus K Address ρ) (run : MapRun K ρ) : MapRun K ρ :=
  let s := run.host.surroundings
  { run with host := { run.host with surroundings := { s with bus := f s.bus } } }

variable [Scalar K]

/-- The round that the next task gives when it is performed. -/
def nextRound (run : MapRun K ρ) : List (Round K) :=
  let s := run.host.surroundings
  (run.taken.head?.bind Task.duty?).toList.map fun r => ⟨r, s.isHeard .map, s.wallClock⟩

/-- The next task performed. -/
def performNext (run : MapRun K ρ) : MapRun K ρ :=
  match run.taken with
  | [] => run
  | task :: rest => ⟨run.host.runTask Station.rebuildMap task, rest⟩

/-- A move, and the round that it gives, if it gives one. -/
def act (run : MapRun K ρ) : MapMove K ρ → MapRun K ρ × List (Round K)
  | .update submaps => ({ run with host := (run.host.updateSubmaps submaps).1 }, [])
  | .reposition origin endpoint =>
    let move (tasks : List (Task K (Rebuild K))) := tasks.map (Task.reposition origin endpoint)
    (⟨run.host.modify fun s => { s with queue := ⟨move s.queue.pending⟩ }, move run.taken⟩, [])
  | .subscribe a l => (run.onBus fun b => b.subscribe a l, [])
  | .unsubscribe a handle => (run.onBus fun b => b.unsubscribe a handle, [])
  | .invoke task => ({ run with host := run.host.submit task }, [])
  | .tick wallClock =>
    let s := run.host.surroundings
    ({ run with host := { run.host with surroundings := { s with wallClock } } }, [])
  | .take =>
    let (batch, queue) := run.host.scheduler.queue.drain
    (⟨run.host.modify fun s => { s with queue }, run.taken ++ batch⟩, [])
  | .perform => (run.performNext, run.nextRound)
  | .count tasks =>
    let counted := run.host.modify fun s =>
      { s with tasksRun := s.tasksRun + tasks, iterations := s.iterations + 1 }
    ({ run with host := counted }, [])

/-- Moves one after the other, and the rounds that they give. -/
def play : List (MapMove K ρ) → MapRun K ρ → MapRun K ρ × List (Round K)
  | [], run => (run, [])
  | m :: moves, run =>
    let (run, rounds) := run.act m
    let (final, later) := play moves run
    (final, rounds ++ later)

end MapRun

/-- The submaps that a move delivers. A delivery of none is refused. -/
def MapMove.delivery? : MapMove K ρ → Option (List (Submap K))
  | .update [] => none
  | .update (s :: submaps) => some (s :: submaps)
  | _ => none

/-- The deliveries among moves. -/
def deliveries (moves : List (MapMove K ρ)) : List (List (Submap K)) :=
  moves.filterMap MapMove.delivery?

/-! ## Iterations of the scheduler -/

namespace MapRun

variable [Scalar K]

theorem play_append (moves moves' : List (MapMove K ρ)) (run : MapRun K ρ) :
    play (moves ++ moves') run =
      ((play moves' (play moves run).1).1,
        (play moves run).2 ++ (play moves' (play moves run).1).2) := by
  induction moves generalizing run with
  | nil => simp [play]
  | cons m moves ih => simp [play, ih]

theorem play_performs (tasks : List (Task K (Rebuild K))) (h : ViewerHost K ρ) :
    (play (List.replicate tasks.length .perform) ⟨h, tasks⟩).1 =
      ⟨h.runBatch Station.rebuildMap tasks, []⟩ := by
  induction tasks generalizing h with
  | nil => rfl
  | cons task rest ih => exact ih (h.runTask Station.rebuildMap task)

/-- An iteration of the scheduler: it takes the tasks that wait, performs them and counts. -/
theorem play_iteration (h : ViewerHost K ρ) :
    (play (.take :: List.replicate h.scheduler.pending .perform ++ [.count h.scheduler.pending])
      ⟨h, []⟩).1 = ⟨h.spinOnce Station.rebuildMap, []⟩ := by
  have htake : (play (.take :: List.replicate h.scheduler.pending .perform) ⟨h, []⟩).1 =
      ⟨(h.modify fun s => { s with queue := {} }).runBatch Station.rebuildMap
        h.scheduler.queue.pending, []⟩ :=
    play_performs h.scheduler.queue.pending (h.modify fun s => { s with queue := {} })
  rw [play_append, htake]
  rfl

end MapRun

/-! ## What leaves maps alone -/

/-- The host has more tasks waiting, and else nothing happened that maps depend on. -/
structure Host.Submits (tasks : List (Task K (Rebuild K))) (h h' : ViewerHost K ρ) : Prop where
  pending : h'.scheduler.queue.pending = h.scheduler.queue.pending ++ tasks
  station : h.surroundings.SameMaps h'.surroundings

namespace Host.Submits

variable {tasks tasks' : List (Task K (Rebuild K))} {h h' h'' : ViewerHost K ρ}

/-- Nothing happened to the queue and the surroundings. -/
theorem quiet (hqueue : h'.scheduler.queue = h.scheduler.queue)
    (hsurroundings : h'.surroundings = h.surroundings) : Submits [] h h' := by
  refine ⟨by rw [hqueue, List.append_nil], ?_⟩
  rw [hsurroundings]
  exact ⟨rfl, rfl, rfl, rfl⟩

theorem trans (hs : Submits tasks h h') (hs' : Submits tasks' h' h'') :
    Submits (tasks ++ tasks') h h'' where
  pending := by rw [hs'.pending, hs.pending, List.append_assoc]
  station :=
    ⟨hs'.station.id.trans hs.station.id, hs'.station.settings.trans hs.station.settings,
      hs'.station.clouds.trans hs.station.clouds, hs'.station.sent.trans hs.station.sent⟩

theorem note (n : Notice K) (hs : Submits tasks h h') : Submits tasks h (LiveMap.note n h') :=
  ⟨hs.pending, ⟨hs.station.id, hs.station.settings, hs.station.clouds, hs.station.sent⟩⟩

theorem submit (task : Task K (Rebuild K)) (h : ViewerHost K ρ) :
    Submits [task] h (h.submit task) := by
  unfold Host.submit
  split
  · exact ⟨rfl, ⟨rfl, rfl, rfl, rfl⟩⟩
  · exact ⟨rfl, ⟨rfl, rfl, rfl, rfl⟩⟩

theorem submitAll (tasks : List (Task K (Rebuild K))) (h : ViewerHost K ρ) :
    Submits tasks h (tasks.foldl (fun h task => h.submit task) h) := by
  induction tasks generalizing h with
  | nil => exact quiet rfl rfl
  | cons task rest ih => exact (submit task h).trans (ih (h.submit task))

theorem join (timeout : K) (h : ViewerHost K ρ) : Submits [] h (h.join timeout).1 := by
  have hjoined : Submits [] h { h with
      scheduler := { h.scheduler with alive := h.scheduler.alive && h.blocked }
      joins := h.joins ++ [timeout] } := quiet rfl rfl
  unfold Host.join
  dsimp only
  split
  · exact hjoined.note _
  · split
    · exact hjoined.note _
    · exact (hjoined.note _).note _

theorem stop (timeout : Option K) (h : ViewerHost K ρ) : Submits [] h (h.stop timeout).1 := by
  have htold : Submits [] h (h.modify fun s => { s with stopRequested := true }) := quiet rfl rfl
  unfold Host.stop
  dsimp only
  split
  · exact quiet rfl rfl
  · split
    · exact htold
    · exact htold.trans (join _ _)

variable [Scalar K]

theorem job (name : String) (work : K) (children : List (Task K (Rebuild K))) (stops fails : Bool)
    (h : ViewerHost K ρ) :
    Submits children h (h.runTask Station.rebuildMap (.job name work children stops fails)) := by
  have hstarted : Submits [] h
      { h with started := h.started ++ [name], now := h.now + work } := quiet rfl rfl
  have hworked := hstarted.trans (submitAll children _)
  have hperformed : Submits children h
      (h.perform Station.rebuildMap (.job name work children stops fails)).1 := by
    rw [perform_job]
    dsimp only
    split
    · have hstopped := hworked.trans (stop none _)
      rw [List.nil_append, List.append_nil] at hstopped
      exact hstopped
    · exact hworked
  rw [runTask_eq]
  split
  · exact hperformed
  · have hfailed (g : ViewerHost K ρ) :
        Submits [] g (g.modify fun s => { s with tasksFailed := s.tasksFailed + 1 }) :=
      quiet rfl rfl
    have hcounted := hperformed.trans (hfailed _)
    rw [List.append_nil] at hcounted
    exact hcounted.note _

theorem updateSubmaps {submaps : List (Submap K)} (hsubmaps : submaps ≠ []) (h : ViewerHost K ρ) :
    Submits [.duty (.ofSubmaps submaps)] h (h.updateSubmaps submaps).1 := by
  unfold ViewerHost.updateSubmaps
  split
  next hlast => exact absurd (List.getLast?_eq_none_iff.mp hlast) hsubmaps
  next latest hlast =>
    dsimp only
    have hcorrected (f : Stats → Stats) : Submits [] h
        { h with surroundings := (h.surroundings.count f).correctAnchor latest } :=
      ⟨(List.append_nil _).symm, Station.sameMaps_correctAnchor f latest h.surroundings⟩
    exact (hcorrected _).trans (submit _ _)

end Host.Submits

theorem Host.runTask_duty_of_ok [Scalar K] {duty : Rebuild K → Station K ρ → Station K ρ × Bool}
    {r : Rebuild K} {h : ViewerHost K ρ} (hok : (duty r h.surroundings).2 = true) :
    h.runTask duty (.duty r) = { h with surroundings := (duty r h.surroundings).1 } := by
  unfold runTask perform
  dsimp only
  rw [hok]

end LiveMap
