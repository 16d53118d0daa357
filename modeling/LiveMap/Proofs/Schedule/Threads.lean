import LiveMap.Schedule.Scheduler

/-!
# A scheduler among threads

Any thread may submit tasks and set the stop flag at any time: between the look at the flag and the
draining of the queue, between two tasks of a batch, and in the middle of a task. However that
interleaves, tasks are begun in the order in which they were submitted.

## Main definitions

* `LoopPoint`: where the loop thread is; `LoopState`: a scheduler with its loop thread there.
* `LoopStep`: one atomic step of any thread; `LoopTrace`: steps one after the other.
* `submittedIn`, `begunIn`, `drainsIn`: what steps did with tasks.

## Main statements

* `LoopTrace.exists_run`: the loop is such a sequence of steps.
* `LoopStep.tasks_eq`, `LoopTrace.tasks_eq`: no task is lost, doubled or overtaken.
* `LoopTrace.begun_in_order`: what becomes of the tasks, also when the scheduler is stopped.
-/

namespace LiveMap

variable {K D E : Type}

/-! ## Steps -/

/-- What is left of a job that has begun. -/
structure RunningJob (K D : Type) where
  name : String
  children : List (Task K D)
  stops : Bool
  fails : Bool

/-- Where the loop thread is. -/
inductive LoopPoint (K D : Type) where
  /-- It is about to look at the stop flag. -/
  | look
  /-- It saw no stop flag, and is about to take what waits. -/
  | drain
  /-- It has taken tasks, of which some are left. -/
  | batch (taken : Nat) (left : List (Task K D))
  /-- It is in the middle of a job, with tasks left behind it. -/
  | job (running : RunningJob K D) (taken : Nat) (left : List (Task K D))
  /-- The batch took some time, and it is about to sleep. -/
  | rest (elapsed : K)
  | ended

/-- A scheduler in its surroundings, with its loop thread at some point. -/
structure LoopState (K D E : Type) where
  host : Host K D E
  point : LoopPoint K D

/-- What a step does with tasks. -/
inductive LoopEvent (K D : Type) where
  | submitted (task : Task K D)
  | drained
  | begun (task : Task K D)
  | other

namespace LoopPoint

/-- The tasks that the thread has taken and not begun. -/
def left : LoopPoint K D → List (Task K D)
  | .batch _ left | .job _ _ left => left
  | .look | .drain | .rest _ | .ended => []

/-- How often the thread drains the queue although the stop flag is set. -/
def drains : LoopPoint K D → Nat
  | .drain => 1
  | .look | .batch _ _ | .job _ _ _ | .rest _ | .ended => 0

end LoopPoint

namespace LoopEvent

def submitted? : LoopEvent K D → Option (Task K D)
  | .submitted task => some task
  | .drained | .begun _ | .other => none

def begun? : LoopEvent K D → Option (Task K D)
  | .begun task => some task
  | .submitted _ | .drained | .other => none

def isDrain : LoopEvent K D → Bool
  | .drained => true
  | .submitted _ | .begun _ | .other => false

end LoopEvent

/-- The tasks that were submitted, by whatever thread. -/
def submittedIn (events : List (LoopEvent K D)) : List (Task K D) :=
  events.filterMap LoopEvent.submitted?

/-- The tasks that were begun. -/
def begunIn (events : List (LoopEvent K D)) : List (Task K D) :=
  events.filterMap LoopEvent.begun?

/-- How often the queue was drained. -/
def drainsIn (events : List (LoopEvent K D)) : Nat := events.countP LoopEvent.isDrain

theorem submittedIn_cons (event : LoopEvent K D) (events : List (LoopEvent K D)) :
    submittedIn (event :: events) = event.submitted?.toList ++ submittedIn events := by
  cases event <;> rfl

theorem begunIn_cons (event : LoopEvent K D) (events : List (LoopEvent K D)) :
    begunIn (event :: events) = event.begun?.toList ++ begunIn events := by
  cases event <;> rfl

/-- The name that a task leaves where jobs are recorded. -/
def Task.jobName? : Task K D → Option String
  | .job name _ _ _ _ => some name
  | .duty _ => none

namespace LoopState

def pending (s : LoopState K D E) : List (Task K D) := s.host.scheduler.queue.pending

/-- A scheduler right after its thread was started. -/
def opened [Noted E K] (period joinTimeout : K) (name : String) (now : K) (surroundings : E) :
    LoopState K D E where
  host := { Host.start { period, joinTimeout, name } now surroundings with onLoopThread := true }
  point := .look

end LoopState

variable [Scalar K] [Noted E K] [Titled D]

/-- One atomic step of any thread. `duty` says what duties do. -/
inductive LoopStep (duty : D → E → E × Bool) :
    LoopState K D E → LoopEvent K D → LoopState K D E → Prop where
  /-- Some thread submits a task. -/
  | submit (task : Task K D) (h : Host K D E) (point : LoopPoint K D) :
    LoopStep duty ⟨h, point⟩ (.submitted task) ⟨h.submit task, point⟩
  /-- Some thread sets the stop flag. -/
  | tell (h : Host K D E) (point : LoopPoint K D) :
    LoopStep duty ⟨h, point⟩ .other ⟨h.tell, point⟩
  /-- Some thread does what has nothing to do with the scheduler, or waits for it to end. -/
  | elsewhere (now : K) (blocked : Bool) (joins : List K) (surroundings : E) (h : Host K D E)
    (point : LoopPoint K D) :
    LoopStep duty ⟨h, point⟩ .other ⟨{ h with now, blocked, joins, surroundings }, point⟩
  /-- The loop thread sees the stop flag and ends. -/
  | finish (h : Host K D E) (hflag : h.scheduler.stopRequested = true) :
    LoopStep duty ⟨h, .look⟩ .other ⟨h.modify fun s => { s with alive := false }, .ended⟩
  | goOn (h : Host K D E) (hflag : h.scheduler.stopRequested = false) :
    LoopStep duty ⟨h, .look⟩ .other ⟨h, .drain⟩
  | drain (h : Host K D E) :
    LoopStep duty ⟨h, .drain⟩ .drained
      ⟨h.modify fun s => { s with queue := h.scheduler.queue.drain.2 },
        .batch h.scheduler.pending h.scheduler.queue.drain.1⟩
  | beginDuty (d : D) (taken : Nat) (left : List (Task K D)) (h : Host K D E) :
    LoopStep duty ⟨h, .batch taken (.duty d :: left)⟩ (.begun (.duty d))
      ⟨h.runTask duty (.duty d), .batch taken left⟩
  | beginJob (name : String) (work : K) (children : List (Task K D)) (stops fails : Bool)
    (taken : Nat) (left : List (Task K D)) (h : Host K D E) :
    LoopStep duty ⟨h, .batch taken (.job name work children stops fails :: left)⟩
      (.begun (.job name work children stops fails))
      ⟨{ h with started := h.started ++ [name], now := h.now + work },
        .job ⟨name, children, stops, fails⟩ taken left⟩
  /-- The job submits its next child. -/
  | child (name : String) (child : Task K D) (children : List (Task K D)) (stops fails : Bool)
    (taken : Nat) (left : List (Task K D)) (h : Host K D E) :
    LoopStep duty ⟨h, .job ⟨name, child :: children, stops, fails⟩ taken left⟩ (.submitted child)
      ⟨h.submit child, .job ⟨name, children, stops, fails⟩ taken left⟩
  /-- The job sets the stop flag. -/
  | stop (name : String) (fails : Bool) (taken : Nat) (left : List (Task K D)) (h : Host K D E) :
    LoopStep duty ⟨h, .job ⟨name, [], true, fails⟩ taken left⟩ .other
      ⟨h.tell, .job ⟨name, [], false, fails⟩ taken left⟩
  | succeed (name : String) (taken : Nat) (left : List (Task K D)) (h : Host K D E) :
    LoopStep duty ⟨h, .job ⟨name, [], false, false⟩ taken left⟩ .other ⟨h, .batch taken left⟩
  /-- The job fails, which is counted and noted. -/
  | fail (name : String) (taken : Nat) (left : List (Task K D)) (h : Host K D E) :
    LoopStep duty ⟨h, .job ⟨name, [], false, true⟩ taken left⟩ .other
      ⟨note (.taskFailed (.job name))
        (h.modify fun s => { s with tasksFailed := s.tasksFailed + 1 }), .batch taken left⟩
  /-- The batch is done and is counted. -/
  | count (taken : Nat) (elapsed : K) (h : Host K D E) :
    LoopStep duty ⟨h, .batch taken []⟩ .other
      ⟨h.modify fun s =>
        { s with tasksRun := s.tasksRun + taken, iterations := s.iterations + 1 }, .rest elapsed⟩
  | rest (elapsed : K) (h : Host K D E) :
    LoopStep duty ⟨h, .rest elapsed⟩ .other ⟨h.rest elapsed, .look⟩

/-- Steps one after the other. -/
inductive LoopTrace (duty : D → E → E × Bool) :
    LoopState K D E → List (LoopEvent K D) → LoopState K D E → Prop where
  | nil (s : LoopState K D E) : LoopTrace duty s [] s
  | cons {s t u : LoopState K D E} {event : LoopEvent K D} {events : List (LoopEvent K D)}
    (step : LoopStep duty s event t) (later : LoopTrace duty t events u) :
    LoopTrace duty s (event :: events) u

namespace LoopTrace

variable {duty : D → E → E × Bool} {s t u : LoopState K D E}
  {events later : List (LoopEvent K D)}

theorem append (h : LoopTrace duty s events t) (h' : LoopTrace duty t later u) :
    LoopTrace duty s (events ++ later) u := by
  induction h with
  | nil => exact h'
  | cons step _ ih => exact .cons step (ih h')

theorem single {event : LoopEvent K D} (step : LoopStep duty s event t) :
    LoopTrace duty s [event] t :=
  .cons step (.nil t)

end LoopTrace

/-! ## The loop as steps -/

namespace LoopTrace

variable {duty : D → E → E × Bool}

/-- A job submits its children one after the other. -/
theorem of_children (duty : D → E → E × Bool) (name : String) (children : List (Task K D))
    (stops fails : Bool) (taken : Nat) (left : List (Task K D)) (h : Host K D E) :
    LoopTrace duty ⟨h, .job ⟨name, children, stops, fails⟩ taken left⟩ (children.map .submitted)
      ⟨children.foldl (fun h child => h.submit child) h,
        .job ⟨name, [], stops, fails⟩ taken left⟩ := by
  induction children generalizing h with
  | nil => exact .nil _
  | cons child children ih => exact .cons (.child ..) (ih _)

theorem exists_of_stops (duty : D → E → E × Bool) (name : String) (stops fails : Bool)
    (taken : Nat) (left : List (Task K D)) (h : Host K D E) :
    ∃ events, LoopTrace duty ⟨h, .job ⟨name, [], stops, fails⟩ taken left⟩ events
      ⟨if stops then h.tell else h, .job ⟨name, [], false, fails⟩ taken left⟩ := by
  cases stops with
  | true => exact ⟨_, single (.stop ..)⟩
  | false => exact ⟨_, .nil _⟩

theorem exists_of_fails (duty : D → E → E × Bool) (name : String) (fails : Bool) (taken : Nat)
    (left : List (Task K D)) (h : Host K D E) :
    let failed : Host K D E := note (.taskFailed (.job name))
      (h.modify fun s => { s with tasksFailed := s.tasksFailed + 1 })
    ∃ events, LoopTrace duty ⟨h, .job ⟨name, [], false, fails⟩ taken left⟩ events
      ⟨if fails then failed else h, .batch taken left⟩ := by
  cases fails with
  | true => exact ⟨_, single (.fail ..)⟩
  | false => exact ⟨_, single (.succeed ..)⟩

/-- A task that is run is a sequence of steps. -/
theorem exists_task (duty : D → E → E × Bool) (task : Task K D) (taken : Nat)
    (left : List (Task K D)) {h : Host K D E} (hthread : h.onLoopThread = true) :
    ∃ events, LoopTrace duty ⟨h, .batch taken (task :: left)⟩ events
      ⟨h.runTask duty task, .batch taken left⟩ := by
  cases task with
  | duty d => exact ⟨_, single (.beginDuty d taken left h)⟩
  | job name work children stops fails =>
    have hchildren := of_children duty name children stops fails taken left
    obtain ⟨_, hstopped⟩ := exists_of_stops duty name stops fails taken left _
    obtain ⟨_, hfinished⟩ := exists_of_fails duty name fails taken left _
    rw [Host.runTask_job duty name work children stops fails hthread]
    exact ⟨_, .cons (.beginJob ..) ((hchildren _).append (hstopped.append hfinished))⟩

theorem exists_batch (duty : D → E → E × Bool) (batch : List (Task K D)) (taken : Nat)
    {h : Host K D E} (hthread : h.onLoopThread = true) :
    ∃ events, LoopTrace duty ⟨h, .batch taken batch⟩ events
      ⟨h.runBatch duty batch, .batch taken []⟩ := by
  induction batch generalizing h with
  | nil => exact ⟨[], .nil _⟩
  | cons task left ih =>
    obtain ⟨_, htask⟩ := exists_task duty task taken left hthread
    obtain ⟨_, hleft⟩ := ih (Host.onLoopThread_runTask duty task hthread)
    exact ⟨_, htask.append hleft⟩

theorem exists_iterate (duty : D → E → E × Bool) {h : Host K D E}
    (hthread : h.onLoopThread = true) :
    ∃ events, LoopTrace duty ⟨h, .drain⟩ events ⟨(h.iterate duty).2, .look⟩ := by
  obtain ⟨_, hbatch⟩ := exists_batch duty h.scheduler.queue.drain.1 h.scheduler.pending
    (h := h.modify fun s => { s with queue := h.scheduler.queue.drain.2 }) hthread
  exact ⟨_, .cons (.drain h) (hbatch.append (.cons (.count ..) (single
    (.rest ((h.spinOnce duty).now - h.now) (h.spinOnce duty)))))⟩

theorem exists_loop (duty : D → E → E × Bool) (rounds : Nat) {h : Host K D E}
    (hthread : h.onLoopThread = true) :
    (h.loop duty rounds).2.1.onLoopThread = true ∧
    ∃ events, LoopTrace duty ⟨h, .look⟩ events
      (if (h.loop duty rounds).2.2 then
        ⟨(h.loop duty rounds).2.1.modify fun s => { s with alive := false }, .ended⟩
      else ⟨(h.loop duty rounds).2.1, .look⟩) := by
  induction rounds generalizing h with
  | zero => exact ⟨hthread, [], .nil _⟩
  | succ rounds ih =>
    rw [Host.loop]
    cases hflag : h.scheduler.stopRequested with
    | true => exact ⟨hthread, _, single (.finish h hflag)⟩
    | false =>
      obtain ⟨_, hround⟩ := exists_iterate duty hthread
      obtain ⟨hthread', _, hlater⟩ := ih (Host.onLoopThread_iterate duty hthread)
      exact ⟨hthread', _, .cons (.goOn h hflag) (hround.append hlater)⟩

/-- What the loop does in some rounds is a sequence of steps. -/
theorem exists_run (duty : D → E → E × Bool) (rounds : Nat) (h : Host K D E) :
    ∃ events, LoopTrace duty ⟨{ h with onLoopThread := true }, .look⟩ events
      ⟨{ (h.run duty rounds).2.1 with onLoopThread := true },
        if (h.run duty rounds).2.2 then .ended else .look⟩ := by
  obtain ⟨hthread, events, hloop⟩ :=
    exists_loop (h := { h with onLoopThread := true }) duty rounds rfl
  refine ⟨events, ?_⟩
  unfold Host.run
  dsimp only
  generalize Host.loop duty rounds { h with onLoopThread := true } = outcome at hthread hloop ⊢
  obtain ⟨_, ⟨scheduler, _⟩, ended⟩ := outcome
  subst hthread
  cases ended with
  | true => simpa [Host.modify] using hloop
  | false => simpa [Host.modify] using hloop

end LoopTrace

/-! ## One step -/

namespace LoopStep

variable {duty : D → E → E × Bool} {s t : LoopState K D E} {event : LoopEvent K D}

/-- What was left in the batch and in the queue, and is submitted, is begun or left. -/
theorem tasks_eq (h : LoopStep duty s event t) :
    s.point.left ++ s.pending ++ event.submitted?.toList =
      event.begun?.toList ++ (t.point.left ++ t.pending) := by
  cases h with
  | submit task h point =>
    simp [LoopState.pending, Scheduler.submit, LoopEvent.submitted?, LoopEvent.begun?]
  | child name child children stops fails taken left h =>
    simp [LoopState.pending, Scheduler.submit, LoopEvent.submitted?, LoopEvent.begun?,
      LoopPoint.left]
  | beginDuty d taken left h =>
    obtain ⟨_, _, hrun⟩ := h.runTask_duty duty d
    simp [hrun, LoopState.pending, LoopEvent.submitted?, LoopEvent.begun?, LoopPoint.left]
  | _ =>
    simp [LoopState.pending, LoopEvent.submitted?, LoopEvent.begun?, LoopPoint.left, Host.modify,
      Host.tell, Queue.drain]

/-- Jobs are recorded when they are begun. -/
theorem started_eq (h : LoopStep duty s event t) :
    t.host.started = s.host.started ++ (event.begun?.bind Task.jobName?).toList := by
  cases h with
  | submit | child => simp [LoopEvent.begun?]
  | beginDuty d taken left h =>
    obtain ⟨_, _, hrun⟩ := h.runTask_duty duty d
    simp [hrun, LoopEvent.begun?, Task.jobName?]
  | beginJob => simp [LoopEvent.begun?, Task.jobName?]
  | _ => simp [LoopEvent.begun?, Host.modify, Host.tell]

/-- Nobody takes the stop flag back. While it is set, the thread drains the queue only if it was
about to. -/
theorem drains_le (h : LoopStep duty s event t) (hflag : s.host.scheduler.stopRequested = true) :
    t.host.scheduler.stopRequested = true ∧
      t.point.drains + (if event.isDrain then 1 else 0) ≤ s.point.drains := by
  cases h with
  | goOn h hunset => cases hunset.symm.trans hflag
  | tell | stop => exact ⟨rfl, Nat.le_refl _⟩
  | submit | child => exact ⟨by simpa [Scheduler.submit] using hflag, Nat.le_refl _⟩
  | beginDuty d taken left h =>
    obtain ⟨_, _, hrun⟩ := h.runTask_duty duty d
    rw [hrun]
    exact ⟨hflag, Nat.le_refl _⟩
  | rest elapsed h => exact ⟨by simpa using hflag, Nat.le_refl _⟩
  | finish | elsewhere | drain | beginJob | succeed | fail | count => exact ⟨hflag, Nat.le_refl _⟩

/-- A thread that has ended begins nothing. -/
theorem ended (h : LoopStep duty s event t) (hended : s.point = .ended) :
    t.point = .ended ∧ event.begun? = none := by
  cases h with
  | submit | tell | elsewhere => exact ⟨hended, rfl⟩
  | _ => cases hended

end LoopStep

/-! ## Many steps -/

namespace LoopTrace

variable {duty : D → E → E × Bool} {s t : LoopState K D E} {events : List (LoopEvent K D)}

/-- By induction on the steps, none of which loses, doubles or overtakes a task. -/
theorem tasks_eq (h : LoopTrace duty s events t) :
    s.point.left ++ s.pending ++ submittedIn events =
      begunIn events ++ (t.point.left ++ t.pending) := by
  induction h with
  | nil => simp [submittedIn, begunIn]
  | @cons s t u event events step _ ih =>
    calc s.point.left ++ s.pending ++ submittedIn (event :: events)
        = (s.point.left ++ s.pending ++ event.submitted?.toList) ++ submittedIn events := by
          rw [submittedIn_cons, List.append_assoc _ _ (submittedIn events)]
      _ = event.begun?.toList ++ (t.point.left ++ t.pending ++ submittedIn events) := by
          rw [step.tasks_eq, List.append_assoc]
      _ = begunIn (event :: events) ++ (u.point.left ++ u.pending) := by
          rw [ih, begunIn_cons, List.append_assoc]

theorem started_eq (h : LoopTrace duty s events t) :
    t.host.started = s.host.started ++ (begunIn events).filterMap Task.jobName? := by
  induction h with
  | nil => simp [begunIn]
  | @cons s t u event events step _ ih =>
    have hevent : event.begun?.toList.filterMap Task.jobName? =
        (event.begun?.bind Task.jobName?).toList := by
      cases event.begun? with
      | none => rfl
      | some task => cases task <;> rfl
    rw [ih, step.started_eq, begunIn_cons, List.filterMap_append, hevent, List.append_assoc]

/-- Once the stop flag is set, the queue is drained as often as the thread was about to. -/
theorem drainsIn_le (h : LoopTrace duty s events t)
    (hflag : s.host.scheduler.stopRequested = true) : drainsIn events ≤ s.point.drains := by
  induction h with
  | nil => exact Nat.zero_le _
  | @cons s t u event events step _ ih =>
    obtain ⟨hflag', hstep⟩ := step.drains_le hflag
    have hlater := ih hflag'
    rw [drainsIn, List.countP_cons]
    exact Nat.le_trans (Nat.add_le_add_right hlater _) hstep

theorem ended (h : LoopTrace duty s events t) (hended : s.point = .ended) :
    t.point = .ended ∧ begunIn events = [] := by
  induction h with
  | nil => exact ⟨hended, rfl⟩
  | @cons s t u event events step _ ih =>
    obtain ⟨hended', hevent⟩ := step.ended hended
    obtain ⟨hlast, hevents⟩ := ih hended'
    refine ⟨hlast, ?_⟩
    simpa [begunIn, hevent] using hevents

/-- However the threads interleave, the tasks that were submitted are those that were begun, those
left in the batch and those in the queue, in this order, and only what was begun has run. After the
stop flag was set the queue is drained at most once more, and after the loop has ended nothing is
begun and what is submitted waits. -/
theorem begun_in_order {period joinTimeout now : K} {name : String} {surroundings : E}
    (h : LoopTrace duty (.opened period joinTimeout name now surroundings) events s) :
    submittedIn events = begunIn events ++ s.point.left ++ s.pending ∧
    s.host.started = (begunIn events).filterMap Task.jobName? ∧
    ∀ later t, LoopTrace duty s later t →
      (s.host.scheduler.stopRequested = true → drainsIn later ≤ 1) ∧
      (s.point = .ended → t.point = .ended ∧ begunIn later = [] ∧
        t.pending = s.pending ++ submittedIn later) := by
  refine ⟨?_, ?_, fun later t hlater => ⟨fun hflag => ?_, fun hended => ?_⟩⟩
  · rw [List.append_assoc]
    exact h.tasks_eq
  · exact h.started_eq
  · have hdrains : s.point.drains ≤ 1 := by
      cases s.point <;> simp [LoopPoint.drains]
    exact Nat.le_trans (hlater.drainsIn_le hflag) hdrains
  · obtain ⟨hended', hbegun⟩ := hlater.ended hended
    have htasks := hlater.tasks_eq
    rw [hended, hended', hbegun] at htasks
    exact ⟨hended', hbegun, htasks.symm⟩

/-- A job without work that neither stops the scheduler nor fails. -/
def quickJob (name : String) : Task Float Empty := .job name 0 [] false false

/-- A job that submits another one and fails. -/
def failingParent : Task Float Empty := .job "parent" 0 [quickJob "child"] false true

/-- The stop flag is set right after the loop thread looked at it; others submit before and after
that, and in the middle of a task. -/
def lateStop : List (LoopEvent Float Empty) :=
  [.submitted failingParent, .other, .other, .submitted (quickJob "second"), .drained,
    .begun failingParent, .submitted (quickJob "third"), .submitted (quickJob "child"), .other,
    .begun (quickJob "second"), .other, .other, .other, .other]

theorem exists_lateStop : ∃ s : LoopState Float Empty (Journal Float),
    LoopTrace nofun (.opened 1 1 "loop" 0 {}) lateStop s ∧ s.point = .ended :=
  ⟨_, .cons (.submit failingParent _ _) <| .cons (.goOn _ rfl) <| .cons (.tell _ _) <|
    .cons (.submit (quickJob "second") _ _) <| .cons (.drain _) <| .cons (.beginJob ..) <|
    .cons (.submit (quickJob "third") _ _) <| .cons (.child ..) <| .cons (.fail ..) <|
    .cons (.beginJob ..) <| .cons (.succeed ..) <| .cons (.count _ 0 _) <| .cons (.rest 0 _) <|
    .cons (.finish _ (by rw [Host.scheduler_rest]; rfl)) <| .nil _, rfl⟩

/-- The batch of the late stop is run, and the rest waits for good. -/
theorem begun_of_lateStop : ∃ s t : LoopState Float Empty (Journal Float),
    LoopTrace nofun (.opened 1 1 "loop" 0 {}) lateStop s ∧ s.point = .ended ∧
    LoopTrace nofun s [.submitted (quickJob "last")] t ∧
    s.host.started = ["parent", "second"] ∧ s.pending = [quickJob "third", quickJob "child"] ∧
    t.pending = [quickJob "third", quickJob "child", quickJob "last"] := by
  obtain ⟨⟨h, point⟩, hlate, hended⟩ := exists_lateStop
  have hlast : LoopTrace nofun ⟨h, point⟩ [.submitted (quickJob "last")]
      ⟨h.submit (quickJob "last"), point⟩ := single (.submit _ h point)
  obtain ⟨htasks, hstarted, hlater⟩ := begun_in_order hlate
  obtain ⟨-, -, hwaiting⟩ := (hlater _ _ hlast).2 hended
  obtain rfl : point = .ended := hended
  have hsubmitted : [failingParent, quickJob "second", quickJob "third", quickJob "child"] =
      [failingParent, quickJob "second"] ++ LoopState.pending ⟨h, .ended⟩ := htasks
  have hpending : [quickJob "third", quickJob "child"] = LoopState.pending ⟨h, .ended⟩ := by
    simpa using hsubmitted
  refine ⟨_, _, hlate, rfl, hlast, hstarted, hpending.symm, ?_⟩
  rw [hwaiting, ← hpending]
  rfl

end LoopTrace

end LiveMap
