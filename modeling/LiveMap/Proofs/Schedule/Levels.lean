import LiveMap.Schedule.Scheduler
import Mathlib.Data.List.Perm.Basic
import Mathlib.Data.List.Range

/-!
# Forests of jobs

A job that submits its children is a tree, and what waits in a queue is a forest. The loop takes the
queue as a whole, so it runs a forest level by level, from left to right: the children of a level
wait while it runs. A job that stops the scheduler ends the loop after its level.

## Main definitions

* `Forest.level`, `Forest.above`: the jobs of one depth, and those of all smaller depths.
* `Forest.height`, `Forest.nodes`: the number of levels, and all jobs.
* `Host.AtBoundary`: what a host has done when some levels were run.

## Main statements

* `Forest.above_height_perm`: the levels hold every job once.
* `Host.atBoundary_iterate`, `Host.loop_atBoundary`: a round runs a level.
* `Host.run_by_levels`: a run of the loop, with or without a job that stops it.
-/

namespace LiveMap

variable {K E : Type}

/-! ## Trees and forests -/

namespace Task

/-- The jobs that a job submits. -/
def children : Task K Empty → List (Task K Empty)
  | .job _ _ children _ _ => children

/-- Whether a job stops the scheduler. -/
def stops : Task K Empty → Bool
  | .job _ _ _ stops _ => stops

/-- Whether a job fails. -/
def fails : Task K Empty → Bool
  | .job _ _ _ _ fails => fails

/-- The descendants of some depth below a job, from left to right. -/
def atDepth : Nat → Task K Empty → List (Task K Empty)
  | 0, task => [task]
  | depth + 1, task => task.children.flatMap (atDepth depth)

end Task

/-- Jobs beside each other. -/
abbrev Forest (K : Type) := List (Task K Empty)

mutual

/-- The number of levels of a job and its descendants. -/
def Task.height : Task K Empty → Nat
  | .job _ _ children _ _ => Forest.height children + 1

/-- The number of levels of a forest. -/
def Forest.height : Forest K → Nat
  | [] => 0
  | task :: rest => max task.height (Forest.height rest)

end

mutual

/-- A job and all its descendants, each job before its own. -/
def Task.nodes : Task K Empty → List (Task K Empty)
  | .job name work children stops fails =>
    .job name work children stops fails :: Forest.nodes children

/-- All jobs of a forest. -/
def Forest.nodes : Forest K → List (Task K Empty)
  | [] => []
  | task :: rest => task.nodes ++ Forest.nodes rest

end

namespace Forest

/-- The jobs of some depth, from left to right. -/
def level (forest : Forest K) (depth : Nat) : Forest K := forest.flatMap (Task.atDepth depth)

/-- The jobs above some depth, level by level. -/
def above (forest : Forest K) (depth : Nat) : Forest K := (List.range depth).flatMap (level forest)

@[simp] theorem level_zero (forest : Forest K) : level forest 0 = forest := by
  simp [level, Task.atDepth]

theorem level_succ (forest : Forest K) (depth : Nat) :
    level forest (depth + 1) = level (forest.flatMap Task.children) depth := by
  rw [level, level, List.flatMap_assoc]
  rfl

@[simp] theorem above_zero (forest : Forest K) : above forest 0 = [] := rfl

theorem above_succ (forest : Forest K) (depth : Nat) :
    above forest (depth + 1) = forest ++ above (forest.flatMap Task.children) depth := by
  rw [above, above, List.range_succ_eq_map, List.flatMap_cons, level_zero, List.flatMap_map]
  simp only [level_succ]

@[simp] theorem above_one (forest : Forest K) : above forest 1 = forest := by
  rw [above_succ, above_zero, List.append_nil]

theorem mem_above {forest : Forest K} {depth : Nat} {task : Task K Empty} :
    task ∈ above forest depth ↔ ∃ higher < depth, task ∈ level forest higher := by
  simp [above]

theorem height_append (forest forest' : Forest K) :
    height (forest ++ forest') = max (height forest) (height forest') := by
  induction forest with
  | nil => simp [height]
  | cons task rest ih => simp only [List.cons_append, height, ih, Nat.max_assoc]

/-- The children of a forest have one level less. -/
theorem height_children (forest : Forest K) :
    height (forest.flatMap Task.children) = height forest - 1 := by
  induction forest with
  | nil => rfl
  | cons task rest ih =>
    cases task with
    | duty d => exact d.elim
    | job name work children stops fails =>
      rw [List.flatMap_cons, height_append, ih, height, Task.height, Task.children]
      omega

theorem nodes_append (forest forest' : Forest K) :
    nodes (forest ++ forest') = nodes forest ++ nodes forest' := by
  induction forest with
  | nil => rfl
  | cons task rest ih => simp only [List.cons_append, nodes, ih, List.append_assoc]

/-- A forest is made of its roots and the forest of their children. -/
theorem nodes_perm (forest : Forest K) :
    (forest ++ nodes (forest.flatMap Task.children)).Perm (nodes forest) := by
  induction forest with
  | nil => exact .refl _
  | cons task rest ih =>
    cases task with
    | duty d => exact d.elim
    | job name work children stops fails =>
      rw [List.flatMap_cons, nodes_append, nodes, Task.nodes, Task.children, List.cons_append,
        List.cons_append]
      refine .cons _ ?_
      have hswap : (rest ++ (nodes children ++ nodes (rest.flatMap Task.children))).Perm
          (nodes children ++ (rest ++ nodes (rest.flatMap Task.children))) := by
        rw [← List.append_assoc, ← List.append_assoc]
        exact List.perm_append_comm.append_right _
      exact hswap.trans (ih.append_left _)

/-- The levels of a forest hold every job once, and there is nothing below them. -/
theorem above_height_perm (forest : Forest K) :
    level forest (height forest) = [] ∧ (above forest (height forest)).Perm (nodes forest) := by
  induction hheight : height forest generalizing forest with
  | zero =>
    cases forest with
    | nil => exact ⟨rfl, .refl _⟩
    | cons task rest =>
      cases task with
      | duty d => exact d.elim
      | job => simp [height, Task.height] at hheight
  | succ depth ih =>
    have hchildren : height (forest.flatMap Task.children) = depth := by
      rw [height_children, hheight, Nat.add_sub_cancel]
    obtain ⟨hbelow, habove⟩ := ih _ hchildren
    rw [level_succ, above_succ]
    exact ⟨hbelow, (habove.append_left forest).trans (nodes_perm forest)⟩

end Forest

/-! ## Batches -/

namespace Host

/-- The loop thread has run jobs, and has not counted them as a batch yet. -/
structure Performed [Noted E K] (ran : List (Task K Empty)) (h h' : Host K Empty E) : Prop where
  pending : h'.scheduler.queue.pending = h.scheduler.queue.pending ++ ran.flatMap Task.children
  stopRequested : h'.scheduler.stopRequested = (h.scheduler.stopRequested || ran.any Task.stops)
  started : h'.started = h.started ++ ran.map Task.jobName
  tasksFailed : h'.scheduler.tasksFailed = h.scheduler.tasksFailed + ran.countP Task.fails
  tasksRun : h'.scheduler.tasksRun = h.scheduler.tasksRun
  iterations : h'.scheduler.iterations = h.scheduler.iterations
  onLoopThread : h'.onLoopThread = h.onLoopThread

theorem Performed.trans [Noted E K] {ran ran' : List (Task K Empty)} {h h' h'' : Host K Empty E}
    (hran : Performed ran h h') (hran' : Performed ran' h' h'') :
    Performed (ran ++ ran') h h'' where
  pending := by
    rw [hran'.pending, hran.pending, List.flatMap_append, List.append_assoc]
  stopRequested := by
    rw [hran'.stopRequested, hran.stopRequested, List.any_append, Bool.or_assoc]
  started := by rw [hran'.started, hran.started, List.map_append, List.append_assoc]
  tasksFailed := by rw [hran'.tasksFailed, hran.tasksFailed, List.countP_append, Nat.add_assoc]
  tasksRun := hran'.tasksRun.trans hran.tasksRun
  iterations := hran'.iterations.trans hran.iterations
  onLoopThread := hran'.onLoopThread.trans hran.onLoopThread

variable [Scalar K] [Noted E K] {duty : Empty → E → E × Bool}

theorem performed_runTask (task : Task K Empty) {h : Host K Empty E}
    (hthread : h.onLoopThread = true) : Performed [task] h (h.runTask duty task) := by
  cases task with
  | duty d => exact d.elim
  | job name work children stops fails =>
    obtain ⟨_, hsubmitted⟩ :=
      submitAll_eq children { h with started := h.started ++ [name], now := h.now + work }
    rw [runTask_job duty name work children stops fails hthread]
    dsimp only
    rw [hsubmitted]
    cases stops <;> cases fails <;>
      constructor <;> simp [tell, modify, Task.children, Task.stops, Task.fails, Task.jobName]

theorem performed_runBatch (batch : List (Task K Empty)) {h : Host K Empty E}
    (hthread : h.onLoopThread = true) : Performed batch h (h.runBatch duty batch) := by
  induction batch generalizing h with
  | nil => constructor <;> simp [runBatch]
  | cons task rest ih =>
    have htask : Performed [task] h (h.runTask duty task) := performed_runTask task hthread
    exact htask.trans (ih (htask.onLoopThread.trans hthread))

/-! ## Iterations -/

/-- A host has run the levels of a forest above some depth, and the level of that depth waits. -/
structure AtBoundary (forest : Forest K) (depth : Nat) (h h' : Host K Empty E) : Prop where
  pending : h'.scheduler.queue.pending = forest.level depth
  started : h'.started = h.started ++ (forest.above depth).map Task.jobName
  iterations : h'.scheduler.iterations = h.scheduler.iterations + depth
  tasksRun : h'.scheduler.tasksRun = h.scheduler.tasksRun + (forest.above depth).length
  tasksFailed : h'.scheduler.tasksFailed =
    h.scheduler.tasksFailed + (forest.above depth).countP Task.fails
  stopRequested : h'.scheduler.stopRequested =
    (h.scheduler.stopRequested || (forest.above depth).any Task.stops)

omit [Scalar K] [Noted E K] in
/-- A level, and then levels of the forest of its children. -/
theorem AtBoundary.succ {forest : Forest K} {depth : Nat} {h h' h'' : Host K Empty E}
    (hfirst : AtBoundary forest 1 h h')
    (hlater : AtBoundary (forest.flatMap Task.children) depth h' h'') :
    AtBoundary forest (depth + 1) h h'' where
  pending := by rw [hlater.pending, Forest.level_succ]
  started := by
    rw [hlater.started, hfirst.started, Forest.above_one, Forest.above_succ, List.map_append,
      List.append_assoc]
  iterations := by rw [hlater.iterations, hfirst.iterations, Nat.add_assoc, Nat.add_comm 1]
  tasksRun := by
    rw [hlater.tasksRun, hfirst.tasksRun, Forest.above_one, Forest.above_succ, List.length_append,
      Nat.add_assoc]
  tasksFailed := by
    rw [hlater.tasksFailed, hfirst.tasksFailed, Forest.above_one, Forest.above_succ,
      List.countP_append, Nat.add_assoc]
  stopRequested := by
    rw [hlater.stopRequested, hfirst.stopRequested, Forest.above_one, Forest.above_succ,
      List.any_append, Bool.or_assoc]

/-- An iteration runs what waits, and leaves the children waiting. -/
theorem atBoundary_iterate {h : Host K Empty E} (hthread : h.onLoopThread = true) :
    AtBoundary h.scheduler.queue.pending 1 h (h.iterate duty).2 := by
  have hbatch : Performed h.scheduler.queue.pending (h.modify fun s => { s with queue := {} })
      ((h.modify fun s => { s with queue := {} }).runBatch duty h.scheduler.queue.pending) :=
    performed_runBatch _ hthread
  have hspun : (h.iterate duty).2.scheduler = (h.spinOnce duty).scheduler := scheduler_rest _ _
  have hstarted : (h.iterate duty).2.started = (h.spinOnce duty).started := started_rest _ _
  refine ⟨?_, ?_, ?_, ?_, ?_, ?_⟩
  · rw [hspun, Forest.level_succ, Forest.level_zero]
    exact hbatch.pending
  · rw [hstarted, Forest.above_one]
    exact hbatch.started
  · rw [hspun]
    exact congrArg (· + 1) hbatch.iterations
  · rw [hspun, Forest.above_one]
    exact congrArg (· + _) hbatch.tasksRun
  · rw [hspun, Forest.above_one]
    exact hbatch.tasksFailed
  · rw [hspun, Forest.above_one]
    exact hbatch.stopRequested

/-! ## The loop -/

variable (duty) in
/-- By induction on the rounds: the first one leaves the forest of the children. -/
theorem loop_atBoundary (rounds : Nat) {h : Host K Empty E} (hthread : h.onLoopThread = true)
    (hflag : 0 < rounds → h.scheduler.stopRequested = false)
    (hquiet : ∀ depth, depth + 1 < rounds →
      ∀ task ∈ Forest.level h.scheduler.queue.pending depth, task.stops = false) :
    (h.loop duty rounds).1.length = rounds ∧ (h.loop duty rounds).2.2 = false ∧
      AtBoundary h.scheduler.queue.pending rounds h (h.loop duty rounds).2.1 := by
  induction rounds generalizing h with
  | zero => exact ⟨rfl, rfl, by constructor <;> simp [loop]⟩
  | succ rounds ih =>
    have hfirst : AtBoundary h.scheduler.queue.pending 1 h (h.iterate duty).2 :=
      atBoundary_iterate hthread
    have hpending : (h.iterate duty).2.scheduler.queue.pending =
        h.scheduler.queue.pending.flatMap Task.children := by
      rw [hfirst.pending, Forest.level_succ, Forest.level_zero]
    have hunset : h.scheduler.stopRequested = false := hflag (Nat.succ_pos _)
    obtain ⟨hlength, hended, hlater⟩ := ih (onLoopThread_iterate duty hthread)
      (fun hrounds => by
        rw [hfirst.stopRequested, hunset, Forest.above_one, Bool.false_or, List.any_eq_false]
        intro task htask
        simpa using hquiet 0 (by omega) task (by simpa using htask))
      (fun depth hdepth => by
        rw [hpending, ← Forest.level_succ]
        exact hquiet (depth + 1) (by omega))
    rw [hpending] at hlater
    rw [loop_of_unstopped duty _ hunset]
    exact ⟨congrArg (· + 1) hlength, hended, hfirst.succ hlater⟩

/-- A loop whose last round left the stop flag set ends in any round behind it. -/
theorem loop_ended {rounds : Nat} {h : Host K Empty E} (hgoing : (h.loop duty rounds).2.2 = false)
    (hstopped : (h.loop duty rounds).2.1.scheduler.stopRequested = true) (more : Nat) :
    h.loop duty (rounds + 1 + more) =
      ((h.loop duty rounds).1, (h.loop duty rounds).2.1, true) := by
  induction rounds generalizing h with
  | zero =>
    rw [Nat.zero_add, Nat.add_comm]
    exact loop_of_stopped duty more hstopped
  | succ rounds ih =>
    cases hflag : h.scheduler.stopRequested with
    | true =>
      rw [loop_of_stopped duty _ hflag] at hgoing
      cases hgoing
    | false =>
      have hfirst := loop_of_unstopped duty rounds hflag
      rw [hfirst] at hgoing hstopped
      rw [Nat.add_right_comm, loop_of_unstopped duty _ hflag, hfirst, ih hgoing hstopped]

/-! ## Runs -/

omit [Scalar K] [Noted E K] in
/-- A boundary of the loop is one of the run, when the thread has left it. -/
theorem AtBoundary.leave {forest : Forest K} {depth : Nat} {h h' : Host K Empty E}
    (hloop : AtBoundary forest depth { h with onLoopThread := true } h') (ended : Bool) :
    AtBoundary forest depth h
      ({ h' with onLoopThread := false }.modify fun s => { s with alive := s.alive && !ended }) :=
  ⟨hloop.pending, hloop.started, hloop.iterations, hloop.tasksRun, hloop.tasksFailed,
    hloop.stopRequested⟩

/-- As long as no level but the last one has a job that stops the loop, there is a round for every
level. -/
theorem run_atBoundary {h : Host K Empty E} (hflag : h.scheduler.stopRequested = false)
    {rounds : Nat} (hquiet : ∀ depth, depth + 1 < rounds →
      ∀ task ∈ Forest.level h.scheduler.queue.pending depth, task.stops = false) :
    (h.run duty rounds).1.length = rounds ∧ (h.run duty rounds).2.2 = false ∧
      AtBoundary h.scheduler.queue.pending rounds h (h.run duty rounds).2.1 := by
  obtain ⟨hlength, hgoing, hboundary⟩ :=
    loop_atBoundary (h := { h with onLoopThread := true }) duty rounds rfl
      (fun _ => hflag) hquiet
  exact ⟨hlength, hgoing, hboundary.leave _⟩

/-- A forest without a job that stops the loop is run in as many rounds as it has levels. -/
theorem run_height {h : Host K Empty E} (hflag : h.scheduler.stopRequested = false)
    (hquiet : ∀ task ∈ Forest.nodes h.scheduler.queue.pending, task.stops = false) :
    (h.run duty (Forest.height h.scheduler.queue.pending)).2.1.scheduler.queue.pending = [] ∧
      ∃ ran : Forest K, ran.Perm (Forest.nodes h.scheduler.queue.pending) ∧
        (h.run duty (Forest.height h.scheduler.queue.pending)).2.1.started =
          h.started ++ ran.map Task.jobName := by
  obtain ⟨hbelow, hperm⟩ := Forest.above_height_perm h.scheduler.queue.pending
  have habove : ∀ depth, depth + 1 < Forest.height h.scheduler.queue.pending →
      ∀ task ∈ Forest.level h.scheduler.queue.pending depth, task.stops = false := by
    intro depth hdepth task htask
    exact hquiet task (hperm.subset (Forest.mem_above.mpr ⟨depth, by omega, htask⟩))
  have hboundary : AtBoundary h.scheduler.queue.pending (Forest.height h.scheduler.queue.pending) h
      (h.run duty (Forest.height h.scheduler.queue.pending)).2.1 :=
    (run_atBoundary hflag habove).2.2
  exact ⟨hboundary.pending.trans hbelow, _, hperm, hboundary.started⟩

/-- The first level with a job that stops the loop is run as a whole, and is the last one. -/
theorem run_of_stops {h : Host K Empty E} (hflag : h.scheduler.stopRequested = false) {depth : Nat}
    (hquiet : ∀ above < depth,
      ∀ task ∈ Forest.level h.scheduler.queue.pending above, task.stops = false)
    (hstops : ∃ task ∈ Forest.level h.scheduler.queue.pending depth, task.stops = true)
    (more : Nat) :
    (h.run duty (depth + 2 + more)).1.length = depth + 1 ∧
      (h.run duty (depth + 2 + more)).2.2 = true ∧
      (h.run duty (depth + 2 + more)).2.1.scheduler.alive = false ∧
      AtBoundary h.scheduler.queue.pending (depth + 1) h (h.run duty (depth + 2 + more)).2.1 := by
  have hloop := loop_atBoundary (h := { h with onLoopThread := true }) duty (depth + 1)
    rfl (fun _ => hflag) fun above habove => hquiet above (by omega)
  obtain ⟨hlength, hgoing, hboundary⟩ := hloop
  have hlast : (Forest.above h.scheduler.queue.pending (depth + 1)).any Task.stops = true := by
    obtain ⟨task, htask, htrue⟩ := hstops
    exact List.any_eq_true.mpr
      ⟨task, Forest.mem_above.mpr ⟨depth, Nat.lt_succ_self _, htask⟩, htrue⟩
  have hended := loop_ended hgoing
    (hboundary.stopRequested.trans (Bool.or_eq_true_iff.mpr (.inr hlast))) more
  unfold Host.run
  rw [hended]
  exact ⟨hlength, rfl, Bool.and_false _, hboundary.leave true⟩

/-- Each round of the loop runs the jobs of one depth of a forest, from left to right, whichever of
them fail, and counts the round, the jobs and the failures. Without a job that stops the loop, as
many rounds as there are levels run every job once. Otherwise the whole level of the first such job
is run, the loop ends, and the next level waits for good. -/
theorem run_by_levels (duty : Empty → E → E × Bool) {forest : Forest K} {h : Host K Empty E}
    (hpending : h.scheduler.queue.pending = forest) (hflag : h.scheduler.stopRequested = false) :
    (∀ rounds, (∀ depth, depth + 1 < rounds → ∀ task ∈ forest.level depth, task.stops = false) →
      (h.run duty rounds).1.length = rounds ∧ (h.run duty rounds).2.2 = false ∧
        AtBoundary forest rounds h (h.run duty rounds).2.1) ∧
    ((∀ task ∈ forest.nodes, task.stops = false) →
      (h.run duty forest.height).2.1.scheduler.queue.pending = [] ∧
        ∃ ran : Forest K, ran.Perm forest.nodes ∧
          (h.run duty forest.height).2.1.started = h.started ++ ran.map Task.jobName) ∧
    (∀ depth, (∀ above < depth, ∀ task ∈ forest.level above, task.stops = false) →
      (∃ task ∈ forest.level depth, task.stops = true) → ∀ more,
      (h.run duty (depth + 2 + more)).1.length = depth + 1 ∧
        (h.run duty (depth + 2 + more)).2.2 = true ∧
        (h.run duty (depth + 2 + more)).2.1.scheduler.alive = false ∧
        AtBoundary forest (depth + 1) h (h.run duty (depth + 2 + more)).2.1) := by
  subst hpending
  exact ⟨fun _ hquiet => run_atBoundary hflag hquiet, run_height hflag,
    fun _ hquiet hstops more => run_of_stops hflag hquiet hstops more⟩

/-- A job that fails after its child was submitted, beside one that stops the loop before its own
child is run. -/
def failingBesideStopping : Forest Float :=
  [.job "failing" 0 [.job "left" 0 [.job "deep" 0 [] false false] false false] false true,
    .job "stopping" 0 [.job "right" 0 [] false false] true false]

/-- Both roots are run in one round, and both children wait for good. -/
theorem run_failingBesideStopping :
    let h : Host Float Empty (Journal Float) :=
      { scheduler :=
          { period := 1, joinTimeout := 1, name := "loop", queue := ⟨failingBesideStopping⟩ }
        now := 0, surroundings := {} }
    let after := (h.run nofun 7).2.1
    after.started = ["failing", "stopping"] ∧
      after.scheduler.queue.pending.map Task.jobName = ["left", "right"] ∧
      after.scheduler.iterations = 1 ∧ after.scheduler.tasksRun = 2 ∧
      after.scheduler.tasksFailed = 1 ∧ after.scheduler.alive = false := by
  intro h after
  have hpending : h.scheduler.queue.pending = failingBesideStopping := rfl
  obtain ⟨-, -, hstopping⟩ := run_by_levels nofun hpending rfl
  obtain ⟨-, -, hdead, hboundary⟩ := hstopping 0 (fun _ habove => absurd habove (Nat.not_lt_zero _))
    ⟨_, List.mem_cons_of_mem _ (List.mem_singleton_self _), rfl⟩ 5
  refine ⟨hboundary.started.trans rfl, ?_, hboundary.iterations.trans rfl,
    hboundary.tasksRun.trans rfl, hboundary.tasksFailed.trans rfl, hdead⟩
  rw [hboundary.pending]
  rfl

end Host

end LiveMap
