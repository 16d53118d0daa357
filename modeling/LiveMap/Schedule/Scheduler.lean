import LiveMap.Schedule.Task
import LiveMap.Schedule.Throttle

/-!
# Schedulers

A scheduler runs submitted tasks on a thread of its own: it takes all that waits, runs it in order,
and sleeps for what is left of its period. It runs on a clock that only work and sleep advance.

## Main definitions

* `Scheduler`: the queue, the stop flag, whether the thread lives, and the counts.
* `Host`: a scheduler in its surroundings, on which tasks act.
* `Host.submit`, `Host.stop`: what any thread may do.
* `Host.perform`, `Host.runTask`, `Host.spinOnce`: a task, a task whose failure is kept, a batch.
* `Host.iterate`, `Host.loop`, `Host.run`: what the thread does.
-/

namespace LiveMap

/-- A loop thread with its queue. -/
structure Scheduler (K τ : Type) where
  period : K
  joinTimeout : K
  name : String
  queue : Queue τ := {}
  stopRequested : Bool := false
  alive : Bool := true
  iterations : Nat := 0
  tasksRun : Nat := 0
  tasksFailed : Nat := 0

def Scheduler.standardName : String := "slamviz-scheduler"

namespace Scheduler

variable {K τ : Type}

/-- The thread lives and was not told to stop. -/
def isRunning (s : Scheduler K τ) : Bool := s.alive && !s.stopRequested

def pending (s : Scheduler K τ) : Nat := s.queue.length

def submit (s : Scheduler K τ) (task : τ) : Scheduler K τ :=
  { s with queue := s.queue.submit task }

end Scheduler

/-- Why a scheduler could not be stopped. -/
inductive StopError where
  | threadBlocked (thread : String)
  deriving DecidableEq, Repr

def StopError.message : StopError → String
  | threadBlocked thread => "Scheduler thread '" ++ thread ++ "' did not terminate"

/-- A scheduler in its surroundings: the clock, whether a task keeps the thread from ending, whether
what happens happens on the loop thread, the joins that were asked for, the jobs that were started,
and all else that duties act on. -/
structure Host (K D E : Type) where
  scheduler : Scheduler K (Task K D)
  now : K
  blocked : Bool := false
  onLoopThread : Bool := false
  joins : List K := []
  started : List String := []
  surroundings : E

namespace Host

variable {K D E : Type}

instance [Noted E K] : Noted (Host K D E) K :=
  ⟨fun n h => { h with surroundings := note n h.surroundings }⟩

def modify (f : Scheduler K (Task K D) → Scheduler K (Task K D)) (h : Host K D E) : Host K D E :=
  { h with scheduler := f h.scheduler }

variable [Noted E K] [Titled D]

omit [Titled D] in
/-- A host whose loop thread begins. -/
def start (scheduler : Scheduler K (Task K D)) (now : K) (surroundings : E) : Host K D E :=
  note (.schedulerStarted scheduler.period) { scheduler, now, surroundings }

/-- Queues a task for the loop thread. A task that comes after the stop waits too. -/
def submit (task : Task K D) (h : Host K D E) : Host K D E :=
  let noted := if h.scheduler.stopRequested then note (.submittedAfterStop task.title) h else h
  noted.modify fun s => s.submit task

omit [Titled D] in
/-- Waits for the thread, which ends unless something blocks it. -/
def join (timeout : K) (h : Host K D E) : Host K D E × Option StopError :=
  let s := { h.scheduler with alive := h.scheduler.alive && h.blocked }
  let joined := { h with scheduler := s, joins := h.joins ++ [timeout] }
  if s.alive then (note .threadBlocked joined, some (.threadBlocked s.name))
  else if s.pending = 0 then (note .schedulerStopped joined, none)
  else (note .schedulerStopped (note (.stoppedWithPending s.pending) joined), none)

omit [Titled D] in
/-- Tells the thread to end, and waits for it unless it is the one that asks. A thread that was told
and has ended is left alone. -/
def stop (timeout : Option K) (h : Host K D E) : Host K D E × Option StopError :=
  if h.scheduler.stopRequested && !h.scheduler.alive then (h, none)
  else
    let told := h.modify fun s => { s with stopRequested := true }
    if h.onLoopThread then (told, none)
    else told.join (timeout.getD h.scheduler.joinTimeout)

/-! ### What a thread leaves alone -/

omit [Titled D] in
@[simp] theorem scheduler_note (n : Notice K) (h : Host K D E) :
    (note n h).scheduler = h.scheduler := rfl

omit [Titled D] in
@[simp] theorem started_note (n : Notice K) (h : Host K D E) :
    (note n h).started = h.started := rfl

omit [Titled D] in
@[simp] theorem onLoopThread_note (n : Notice K) (h : Host K D E) :
    (note n h).onLoopThread = h.onLoopThread := rfl

@[simp] theorem scheduler_submit (task : Task K D) (h : Host K D E) :
    (h.submit task).scheduler = h.scheduler.submit task := by
  unfold submit
  split <;> rfl

@[simp] theorem started_submit (task : Task K D) (h : Host K D E) :
    (h.submit task).started = h.started := by
  unfold submit
  split <;> rfl

@[simp] theorem onLoopThread_submit (task : Task K D) (h : Host K D E) :
    (h.submit task).onLoopThread = h.onLoopThread := by
  unfold submit
  split <;> rfl

/-- Tasks that are submitted one after the other change nothing but the queue, and what is noted of
them. -/
theorem submitAll_eq (tasks : List (Task K D)) (h : Host K D E) :
    ∃ surroundings, tasks.foldl (fun h task => h.submit task) h =
      { h with
        scheduler := { h.scheduler with queue := h.scheduler.queue.submitAll tasks }
        surroundings } := by
  induction tasks generalizing h with
  | nil => exact ⟨_, rfl⟩
  | cons task rest ih =>
    obtain ⟨_, hrest⟩ := ih (h.submit task)
    rw [List.foldl_cons, hrest]
    unfold submit
    split
    · exact ⟨_, rfl⟩
    · exact ⟨_, rfl⟩

theorem onLoopThread_submitAll (tasks : List (Task K D)) (h : Host K D E) :
    (tasks.foldl (fun h task => h.submit task) h).onLoopThread = h.onLoopThread := by
  obtain ⟨_, hall⟩ := submitAll_eq tasks h
  rw [hall]

omit [Noted E K] [Titled D] in
/-- The host with the stop flag set; nobody waits for the thread. -/
def tell (h : Host K D E) : Host K D E := h.modify fun s => { s with stopRequested := true }

omit [Titled D] in
/-- The loop thread does not wait for itself. -/
theorem stop_of_onLoopThread {h : Host K D E} (hthread : h.onLoopThread = true)
    (timeout : Option K) : h.stop timeout = (h.tell, none) := by
  obtain ⟨⟨period, joinTimeout, name, queue, stopRequested, alive, _, _, _⟩, _⟩ := h
  cases stopRequested with
  | true => cases alive <;> simp_all [stop, tell, modify]
  | false => simp_all [stop, tell]

variable [Add K]

/-- Does what a task says, and tells whether it succeeded. `duty` says what duties do. -/
def perform (duty : D → E → E × Bool) (task : Task K D) (h : Host K D E) : Host K D E × Bool :=
  match task with
  | .duty d =>
    let (surroundings, ok) := duty d h.surroundings
    ({ h with surroundings }, ok)
  | .job name work children stops fails =>
    let worked := { h with started := h.started ++ [name], now := h.now + work }
    let submitted := children.foldl (fun h child => h.submit child) worked
    if stops then
      match submitted.stop none with
      | (stopped, none) => (stopped, !fails)
      | (stopped, some _) => (stopped, false)
    else (submitted, !fails)

/-- Performs a task; a failure is counted and noted. -/
def runTask (duty : D → E → E × Bool) (task : Task K D) (h : Host K D E) : Host K D E :=
  match h.perform duty task with
  | (h, true) => h
  | (h, false) =>
    note (.taskFailed task.title)
      (h.modify fun s => { s with tasksFailed := s.tasksFailed + 1 })

/-- A job fails if it is to, or if it stops the scheduler in vain. -/
theorem perform_job (duty : D → E → E × Bool) (name : String) (work : K)
    (children : List (Task K D)) (stops fails : Bool) (h : Host K D E) :
    h.perform duty (.job name work children stops fails) =
      let worked := { h with started := h.started ++ [name], now := h.now + work }
      let submitted := children.foldl (fun h child => h.submit child) worked
      if stops then ((submitted.stop none).1, (submitted.stop none).2.isNone && !fails)
      else (submitted, !fails) := by
  unfold perform
  dsimp only
  cases stops with
  | false => rfl
  | true =>
    rw [if_pos rfl, if_pos rfl]
    split
    next heq => rw [heq, Option.isNone_none, Bool.true_and]
    next heq => rw [heq, Option.isNone_some, Bool.false_and]

theorem runTask_eq (duty : D → E → E × Bool) (task : Task K D) (h : Host K D E) :
    h.runTask duty task =
      if (h.perform duty task).2 then (h.perform duty task).1
      else
        note (.taskFailed task.title) ((h.perform duty task).1.modify
          fun s => { s with tasksFailed := s.tasksFailed + 1 }) := by
  unfold runTask
  split
  next heq => rw [heq, if_pos rfl]
  next heq => rw [heq, if_neg Bool.false_ne_true]

/-- A duty changes its surroundings, and is counted when it fails. -/
theorem runTask_duty (duty : D → E → E × Bool) (d : D) (h : Host K D E) :
    ∃ tasksFailed surroundings, h.runTask duty (.duty d) =
      { h with scheduler := { h.scheduler with tasksFailed }, surroundings } := by
  unfold runTask perform
  dsimp only
  cases (duty d h.surroundings).2 with
  | true => exact ⟨_, _, rfl⟩
  | false => exact ⟨_, _, rfl⟩

/-- A job on the loop thread, one thing after the other. -/
theorem runTask_job (duty : D → E → E × Bool) (name : String) (work : K)
    (children : List (Task K D)) (stops fails : Bool) {h : Host K D E}
    (hthread : h.onLoopThread = true) :
    h.runTask duty (.job name work children stops fails) =
      let worked := { h with started := h.started ++ [name], now := h.now + work }
      let submitted := children.foldl (fun h child => h.submit child) worked
      let stopped := if stops then submitted.tell else submitted
      if fails then
        note (.taskFailed (.job name))
          (stopped.modify fun s => { s with tasksFailed := s.tasksFailed + 1 })
      else stopped := by
  have hsubmitted := (onLoopThread_submitAll children
    { h with started := h.started ++ [name], now := h.now + work }).trans hthread
  unfold runTask perform
  dsimp only
  rw [stop_of_onLoopThread hsubmitted]
  cases stops <;> cases fails <;> rfl

/-- Performs tasks in order, whichever of them fail. -/
def runBatch (duty : D → E → E × Bool) (batch : List (Task K D)) (h : Host K D E) : Host K D E :=
  batch.foldl (fun h task => h.runTask duty task) h

/-- Takes all that waits and performs it in order. What is submitted meanwhile waits for the next
time. -/
def spinOnce (duty : D → E → E × Bool) (h : Host K D E) : Host K D E :=
  let (batch, queue) := h.scheduler.queue.drain
  let drained := h.modify fun s => { s with queue }
  (drained.runBatch duty batch).modify fun s =>
    { s with tasksRun := s.tasksRun + batch.length, iterations := s.iterations + 1 }

/-! ### The loop thread stays itself -/

theorem onLoopThread_runTask (duty : D → E → E × Bool) (task : Task K D) {h : Host K D E}
    (hthread : h.onLoopThread = true) : (h.runTask duty task).onLoopThread = true := by
  cases task with
  | duty d =>
    obtain ⟨_, _, hrun⟩ := h.runTask_duty duty d
    rw [hrun]
    exact hthread
  | job name work children stops fails =>
    have hsubmitted := (onLoopThread_submitAll children
      { h with started := h.started ++ [name], now := h.now + work }).trans hthread
    rw [runTask_job duty name work children stops fails hthread]
    cases stops <;> cases fails <;> exact hsubmitted

theorem onLoopThread_runBatch (duty : D → E → E × Bool) (batch : List (Task K D)) {h : Host K D E}
    (hthread : h.onLoopThread = true) : (h.runBatch duty batch).onLoopThread = true := by
  induction batch generalizing h with
  | nil => exact hthread
  | cons task rest ih => exact ih (onLoopThread_runTask duty task hthread)

theorem onLoopThread_spinOnce (duty : D → E → E × Bool) {h : Host K D E}
    (hthread : h.onLoopThread = true) : (h.spinOnce duty).onLoopThread = true :=
  onLoopThread_runBatch (h := h.modify _) duty _ hthread

end Host

/-- How long the tasks of one iteration took, and how long the thread slept after them. -/
structure Iteration (K : Type) where
  elapsed : K
  slept : K
  deriving DecidableEq, Repr

namespace Host

variable {K D E : Type} [Scalar K] [Noted E K] [Titled D]

omit [Noted E K] [Titled D] in
/-- Sleeps for what is left of the period. -/
def rest (elapsed : K) (h : Host K D E) : Host K D E :=
  match throttle h.scheduler.period elapsed with
  | none => h
  | some sleep => { h with now := h.now + sleep }

omit [Noted E K] [Titled D] in
@[simp] theorem scheduler_rest (elapsed : K) (h : Host K D E) :
    (h.rest elapsed).scheduler = h.scheduler := by
  unfold rest
  split <;> rfl

omit [Noted E K] [Titled D] in
@[simp] theorem started_rest (elapsed : K) (h : Host K D E) :
    (h.rest elapsed).started = h.started := by
  unfold rest
  split <;> rfl

omit [Noted E K] [Titled D] in
@[simp] theorem onLoopThread_rest (elapsed : K) (h : Host K D E) :
    (h.rest elapsed).onLoopThread = h.onLoopThread := by
  unfold rest
  split <;> rfl

/-- One round of the loop: a batch, then the sleep. -/
def iterate (duty : D → E → E × Bool) (h : Host K D E) : Iteration K × Host K D E :=
  let spun := h.spinOnce duty
  let elapsed := spun.now - h.now
  (⟨elapsed, slept (throttle spun.scheduler.period elapsed)⟩, spun.rest elapsed)

theorem onLoopThread_iterate (duty : D → E → E × Bool) {h : Host K D E}
    (hthread : h.onLoopThread = true) : (h.iterate duty).2.onLoopThread = true :=
  (onLoopThread_rest _ _).trans (onLoopThread_spinOnce duty hthread)

/-- At most `rounds` rounds of the loop, which ends by itself as soon as the stop flag is seen: the
rounds, the host, and whether the loop ended. -/
def loop (duty : D → E → E × Bool) : Nat → Host K D E → List (Iteration K) × Host K D E × Bool
  | 0, h => ([], h, false)
  | rounds + 1, h =>
    if h.scheduler.stopRequested then ([], h, true)
    else
      let (iteration, h) := h.iterate duty
      let (iterations, h, ended) := loop duty rounds h
      (iteration :: iterations, h, ended)

theorem loop_of_stopped (duty : D → E → E × Bool) (rounds : Nat) {h : Host K D E}
    (hflag : h.scheduler.stopRequested = true) : h.loop duty (rounds + 1) = ([], h, true) := by
  rw [loop, if_pos hflag]

theorem loop_of_unstopped (duty : D → E → E × Bool) (rounds : Nat) {h : Host K D E}
    (hflag : h.scheduler.stopRequested = false) :
    h.loop duty (rounds + 1) =
      ((h.iterate duty).1 :: ((h.iterate duty).2.loop duty rounds).1,
        ((h.iterate duty).2.loop duty rounds).2) := by
  rw [loop, hflag, if_neg Bool.false_ne_true]

/-- At most `rounds` rounds on the loop thread, which is dead when the loop has ended. -/
def run (duty : D → E → E × Bool) (rounds : Nat) (h : Host K D E) :
    List (Iteration K) × Host K D E × Bool :=
  let (iterations, h, ended) := loop duty rounds { h with onLoopThread := true }
  let left := { h with onLoopThread := false }
  (iterations, left.modify fun s => { s with alive := s.alive && !ended }, ended)

/-- A loop that was told to end does nothing any more. -/
theorem surroundings_run_of_stopped (duty : D → E → E × Bool) (rounds : Nat) {h : Host K D E}
    (hflag : h.scheduler.stopRequested = true) :
    (h.run duty rounds).2.1.surroundings = h.surroundings := by
  cases rounds with
  | zero => rfl
  | succ rounds =>
    have hended := loop_of_stopped (h := { h with onLoopThread := true }) duty rounds hflag
    rw [run, hended]
    rfl

end Host

end LiveMap
