import LiveMap.Proofs.Schedule.Threads

/-!
# Stopping a scheduler

Whoever asks a scheduler to stop, and whenever, the stop flag is set, and nothing but the flag and
the thread is touched. A thread that another one waits for has ended, or the wait fails and can be
repeated. Flag and thread never come back.

## Main definitions

* `Scheduler.Ages`: what can become of a scheduler.
* `Host.seenFrom`: a host as the loop thread or another one acts on it.
* `Host.Move`, `Host.act`, `Host.play`: what happens to a host, task by task.

## Main statements

* `Host.stop_eq`: all ways out of a stop at once.
* `Host.runTask_job_eq`: a job on any thread.
* `Host.spinOnce_eq_play`, `Host.exists_run_eq_play`: batches and the loop are made of moves.
* `Host.ages_play`: whatever happens, a scheduler only ages.
* `Host.stop_settles`: what a stop comes to, and what comes after it.
-/

namespace LiveMap

variable {K D E : Type}

/-! ## Ages -/

/-- What can become of a scheduler: a thread that has ended stays so, and a stop flag stays set. -/
structure Scheduler.Ages {τ : Type} (s s' : Scheduler K τ) : Prop where
  dead : s.alive = false → s'.alive = false
  told : s.stopRequested = true → s'.stopRequested = true

namespace Scheduler.Ages

variable {τ : Type} {s s' s'' : Scheduler K τ}

/-- Thread and flag are as they were. -/
theorem quiet (halive : s'.alive = s.alive) (hflag : s'.stopRequested = s.stopRequested) :
    s.Ages s' := ⟨halive.trans, hflag.trans⟩

theorem refl (s : Scheduler K τ) : s.Ages s := quiet rfl rfl

theorem trans (h : s.Ages s') (h' : s'.Ages s'') : s.Ages s'' :=
  ⟨fun hdead => h'.dead (h.dead hdead), fun hflag => h'.told (h.told hflag)⟩

/-- What does not run any more stays so. -/
theorem isRunning (h : s.Ages s') (hstill : s.isRunning = false) : s'.isRunning = false := by
  simp only [Scheduler.isRunning, Bool.and_eq_false_iff, Bool.not_eq_false'] at hstill ⊢
  exact hstill.imp h.dead h.told

end Scheduler.Ages

namespace Host

/-- The thread lives, something keeps it from ending, and another thread would wait for it. -/
def isStuck (h : Host K D E) : Bool := h.scheduler.alive && h.blocked && !h.onLoopThread

variable [Noted E K]

/-! ## One stop -/

/-- A wait touches the thread only, and fails if the thread is still there. -/
theorem join_eq_ite (timeout : K) (h : Host K D E) : ∃ surroundings,
    h.join timeout =
      ({ h with
          scheduler := { h.scheduler with alive := h.scheduler.alive && h.blocked }
          joins := h.joins ++ [timeout]
          surroundings },
        if h.scheduler.alive && h.blocked then some (.threadBlocked h.scheduler.name)
        else none) := by
  unfold join
  dsimp only
  split
  · exact ⟨_, rfl⟩
  · split <;> exact ⟨_, rfl⟩

/-- A stop sets the flag, whatever its way out; the thread survives if it is the one that asks, or
if something blocks it, and only the latter is an error. -/
theorem stop_eq (timeout : Option K) (h : Host K D E) : ∃ joins surroundings,
    h.stop timeout =
      ({ h with
          scheduler :=
            { h.scheduler with
              stopRequested := true
              alive := h.scheduler.alive && (h.onLoopThread || h.blocked) }
          joins
          surroundings },
        if h.isStuck then some (.threadBlocked h.scheduler.name) else none) := by
  by_cases hended : (h.scheduler.stopRequested && !h.scheduler.alive) = true
  · rw [stop, if_pos hended]
    rw [Bool.and_eq_true, Bool.not_eq_true'] at hended
    refine ⟨h.joins, h.surroundings, ?_⟩
    rw [isStuck, hended.2, Bool.false_and, Bool.false_and, Bool.false_and,
      if_neg Bool.false_ne_true, ← hended.1, ← hended.2]
  · rw [stop, if_neg hended]
    by_cases hthread : h.onLoopThread = true
    · have halive : (h.scheduler.alive && (h.onLoopThread || h.blocked)) = h.scheduler.alive := by
        rw [hthread, Bool.true_or, Bool.and_true]
      have hfine : ¬ h.isStuck = true := by simp [isStuck, hthread]
      refine ⟨h.joins, h.surroundings, (if_pos hthread).trans ?_⟩
      rw [halive, if_neg hfine]
      rfl
    · obtain ⟨surroundings, hjoin⟩ := join_eq_ite (timeout.getD h.scheduler.joinTimeout) h.tell
      have hother : h.onLoopThread = false := eq_false_of_ne_true hthread
      have halive : (h.scheduler.alive && (h.onLoopThread || h.blocked)) =
          (h.scheduler.alive && h.blocked) := by rw [hother, Bool.false_or]
      have hblocked : h.isStuck = (h.scheduler.alive && h.blocked) := by
        rw [isStuck, hother, Bool.not_false, Bool.and_true]
      refine ⟨h.joins ++ [timeout.getD h.scheduler.joinTimeout], surroundings,
        (if_neg hthread).trans (hjoin.trans ?_)⟩
      rw [halive, hblocked]
      rfl

/-! ## Tasks on any thread -/

section Tasks

variable [Scalar K] [Titled D] {duty : D → E → E × Bool}

/-- What a job does. A stop that waits in vain is a failure of the job that asks for it. -/
theorem perform_job_eq (duty : D → E → E × Bool) (name : String) (work : K)
    (children : List (Task K D)) (stops fails : Bool) (h : Host K D E) : ∃ now joins surroundings,
    h.perform duty (.job name work children stops fails) =
      ({ h with
          scheduler :=
            { h.scheduler with
              queue := h.scheduler.queue.submitAll children
              stopRequested := h.scheduler.stopRequested || stops
              alive := h.scheduler.alive && (!stops || h.onLoopThread || h.blocked) }
          now
          joins
          started := h.started ++ [name]
          surroundings },
        !(fails || stops && h.isStuck)) := by
  obtain ⟨surroundings, hsubmitted⟩ :=
    submitAll_eq children { h with started := h.started ++ [name], now := h.now + work }
  have hstuck : isStuck
      { h with
        scheduler := { h.scheduler with queue := h.scheduler.queue.submitAll children }
        started := h.started ++ [name], now := h.now + work, surroundings } = h.isStuck := rfl
  rw [perform_job]
  dsimp only
  rw [hsubmitted]
  cases stops with
  | false =>
    refine ⟨h.now + work, h.joins, surroundings, ?_⟩
    simp
  | true =>
    obtain ⟨joins, surroundings', hstop⟩ := stop_eq none
      { h with
        scheduler := { h.scheduler with queue := h.scheduler.queue.submitAll children }
        started := h.started ++ [name], now := h.now + work, surroundings }
    refine ⟨h.now + work, joins, surroundings', ?_⟩
    rw [if_pos rfl, hstop, hstuck]
    cases h.isStuck with
    | false => simp
    | true => simp

/-- One failure at most is counted of a job, also of one that waits in vain. -/
theorem runTask_job_eq (duty : D → E → E × Bool) (name : String) (work : K)
    (children : List (Task K D)) (stops fails : Bool) (h : Host K D E) :
    ∃ now joins surroundings, h.runTask duty (.job name work children stops fails) =
      { h with
        scheduler :=
          { h.scheduler with
            queue := h.scheduler.queue.submitAll children
            stopRequested := h.scheduler.stopRequested || stops
            alive := h.scheduler.alive && (!stops || h.onLoopThread || h.blocked)
            tasksFailed := h.scheduler.tasksFailed + (fails || stops && h.isStuck).toNat }
        now
        joins
        started := h.started ++ [name]
        surroundings } := by
  obtain ⟨now, joins, surroundings, hjob⟩ :=
    perform_job_eq duty name work children stops fails h
  rw [runTask_eq, hjob]
  cases fails || stops && h.isStuck with
  | false => exact ⟨now, joins, surroundings, rfl⟩
  | true => exact ⟨now, joins, _, rfl⟩

/-- What tasks leave alone, whichever thread runs them. -/
structure Ran (h h' : Host K D E) : Prop where
  ages : h.scheduler.Ages h'.scheduler
  blocked : h'.blocked = h.blocked
  onLoopThread : h'.onLoopThread = h.onLoopThread
  tasksRun : h'.scheduler.tasksRun = h.scheduler.tasksRun
  iterations : h'.scheduler.iterations = h.scheduler.iterations
  /-- A thread that cannot end does not. -/
  alive : h.blocked = true → h'.scheduler.alive = h.scheduler.alive

omit [Noted E K] [Scalar K] [Titled D] in
theorem Ran.refl (h : Host K D E) : Ran h h :=
  ⟨.refl _, rfl, rfl, rfl, rfl, fun _ => rfl⟩

omit [Noted E K] [Scalar K] [Titled D] in
theorem Ran.trans {h h' h'' : Host K D E} (hran : Ran h h') (hran' : Ran h' h'') : Ran h h'' where
  ages := hran.ages.trans hran'.ages
  blocked := hran'.blocked.trans hran.blocked
  onLoopThread := hran'.onLoopThread.trans hran.onLoopThread
  tasksRun := hran'.tasksRun.trans hran.tasksRun
  iterations := hran'.iterations.trans hran.iterations
  alive hblocked :=
    (hran'.alive (hran.blocked.trans hblocked)).trans (hran.alive hblocked)

omit [Noted E K] [Scalar K] [Titled D] in
theorem Ran.isStuck {h h' : Host K D E} (hran : Ran h h') (hstuck : h.isStuck = true) :
    h'.isStuck = true := by
  have hblocked : h.blocked = true := by
    rw [Host.isStuck, Bool.and_eq_true, Bool.and_eq_true] at hstuck
    exact hstuck.1.2
  rw [Host.isStuck] at hstuck ⊢
  rwa [hran.alive hblocked, hran.blocked, hran.onLoopThread]

theorem ran_runTask (duty : D → E → E × Bool) (task : Task K D) (h : Host K D E) :
    Ran h (h.runTask duty task) := by
  cases task with
  | duty d =>
    obtain ⟨_, _, hrun⟩ := h.runTask_duty duty d
    rw [hrun]
    exact ⟨.quiet rfl rfl, rfl, rfl, rfl, rfl, fun _ => rfl⟩
  | job name work children stops fails =>
    obtain ⟨_, _, _, hrun⟩ := runTask_job_eq duty name work children stops fails h
    rw [hrun]
    refine ⟨⟨fun hdead => ?_, fun hflag => ?_⟩, rfl, rfl, rfl, rfl, fun hblocked => ?_⟩
    · exact Bool.and_eq_false_iff.mpr (.inl hdead)
    · exact Bool.or_eq_true_iff.mpr (.inl hflag)
    · simp [hblocked]

theorem started_runTask (duty : D → E → E × Bool) (task : Task K D) (h : Host K D E) :
    (h.runTask duty task).started = h.started ++ task.jobName?.toList := by
  cases task with
  | duty d =>
    obtain ⟨_, _, hrun⟩ := h.runTask_duty duty d
    rw [hrun]
    exact (List.append_nil _).symm
  | job name work children stops fails =>
    obtain ⟨_, _, _, hrun⟩ := runTask_job_eq duty name work children stops fails h
    rw [hrun]
    rfl

theorem ran_runBatch (duty : D → E → E × Bool) (batch : List (Task K D)) (h : Host K D E) :
    Ran h (h.runBatch duty batch) := by
  induction batch generalizing h with
  | nil => exact .refl h
  | cons task rest ih => exact (ran_runTask duty task h).trans (ih _)

/-- All jobs of a batch are started, whichever of them fail. -/
theorem started_runBatch (duty : D → E → E × Bool) (batch : List (Task K D)) (h : Host K D E) :
    (h.runBatch duty batch).started = h.started ++ batch.filterMap Task.jobName? := by
  induction batch generalizing h with
  | nil => exact (List.append_nil _).symm
  | cons task rest ih =>
    have hjobs : (task :: rest).filterMap Task.jobName? =
        task.jobName?.toList ++ rest.filterMap Task.jobName? := by cases task <;> rfl
    rw [hjobs, ← List.append_assoc, ← started_runTask duty task h]
    exact ih _

/-- A batch of which the tasks up to one have been run. -/
theorem runBatch_append_cons (duty : D → E → E × Bool) (before : List (Task K D))
    (task : Task K D) (after : List (Task K D)) (h : Host K D E) :
    h.runBatch duty (before ++ task :: after) =
      ((h.runBatch duty before).runTask duty task).runBatch duty after := by
  simp [runBatch]

/-! ## Moves -/

omit [Noted E K] [Scalar K] [Titled D] in
/-- The host as the loop thread acts on it, or as another thread does. -/
def seenFrom (own : Bool) (h : Host K D E) : Host K D E := { h with onLoopThread := own }

/-- What can happen to a host. Batches and the loop consist of such moves. -/
inductive Move (K D : Type) where
  | submit (task : Task K D)
  /-- Something keeps the thread from ending, or nothing does any more. -/
  | block (blocked : Bool)
  /-- A thread other than the loop thread asks for a stop. -/
  | stop (timeout : Option K)
  | drain
  /-- The loop thread runs a task, or another one does. -/
  | task (own : Bool) (task : Task K D)
  | count (taken : Nat)
  | rest (elapsed : K)
  /-- The loop thread looks at the stop flag, and ends if it is set. -/
  | look

/-- What a move does. `duty` says what duties do. -/
def act (duty : D → E → E × Bool) (h : Host K D E) : Move K D → Host K D E
  | .submit task => h.submit task
  | .block blocked => { h with blocked }
  | .stop timeout => ((h.seenFrom false).stop timeout).1
  | .drain => h.modify fun s => { s with queue := s.queue.drain.2 }
  | .task own task => (h.seenFrom own).runTask duty task
  | .count taken =>
    h.modify fun s => { s with tasksRun := s.tasksRun + taken, iterations := s.iterations + 1 }
  | .rest elapsed => h.rest elapsed
  | .look => h.modify fun s => { s with alive := s.alive && !s.stopRequested }

/-- Moves one after the other. -/
def play (duty : D → E → E × Bool) (moves : List (Move K D)) (h : Host K D E) : Host K D E :=
  moves.foldl (act duty) h

theorem play_append (duty : D → E → E × Bool) (moves later : List (Move K D))
    (h : Host K D E) : h.play duty (moves ++ later) = (h.play duty moves).play duty later :=
  List.foldl_append

theorem ages_act (duty : D → E → E × Bool) (move : Move K D) (h : Host K D E) :
    h.scheduler.Ages (h.act duty move).scheduler := by
  cases move with
  | submit task => exact .quiet (by simp [act, Scheduler.submit]) (by simp [act, Scheduler.submit])
  | stop timeout =>
    obtain ⟨_, _, hstop⟩ := stop_eq timeout (h.seenFrom false)
    rw [act, hstop]
    exact ⟨fun hdead => Bool.and_eq_false_iff.mpr (.inl hdead), fun _ => rfl⟩
  | task own task => exact (ran_runTask duty task (h.seenFrom own)).ages
  | rest elapsed => exact .quiet (by simp [act]) (by simp [act])
  | look => exact ⟨fun hdead => Bool.and_eq_false_iff.mpr (.inl hdead), id⟩
  | block | drain | count => exact .quiet rfl rfl

/-- Whatever happens, a scheduler only ages. -/
theorem ages_play (duty : D → E → E × Bool) (moves : List (Move K D)) (h : Host K D E) :
    h.scheduler.Ages (h.play duty moves).scheduler := by
  induction moves generalizing h with
  | nil => exact .refl _
  | cons move later ih => exact (ages_act duty move h).trans (ih _)

/-! ### Batches and the loop as moves -/

/-- The moves of a batch. -/
def batchMoves (own : Bool) (batch : List (Task K D)) : List (Move K D) :=
  .drain :: batch.map (.task own) ++ [.count batch.length]

theorem runBatch_eq_play (duty : D → E → E × Bool) (batch : List (Task K D)) (h : Host K D E) :
    h.runBatch duty batch = h.play duty (batch.map (.task h.onLoopThread)) := by
  induction batch generalizing h with
  | nil => rfl
  | cons task rest ih =>
    have hrest := ih (h.runTask duty task)
    rw [(ran_runTask duty task h).onLoopThread] at hrest
    exact hrest

theorem spinOnce_eq_play (duty : D → E → E × Bool) (h : Host K D E) :
    h.spinOnce duty = h.play duty (batchMoves h.onLoopThread h.scheduler.queue.pending) := by
  have hbatch := runBatch_eq_play duty h.scheduler.queue.pending (h.act duty .drain)
  rw [batchMoves, play_append]
  exact congrArg (fun h' => h'.act duty (.count h.scheduler.queue.pending.length)) hbatch

/-- The moves of one round of the loop: a batch, then the sleep. -/
theorem iterate_eq_play (duty : D → E → E × Bool) (h : Host K D E) :
    (h.iterate duty).2 = h.play duty (batchMoves h.onLoopThread h.scheduler.queue.pending ++
      [.rest ((h.spinOnce duty).now - h.now)]) := by
  rw [play_append, ← spinOnce_eq_play]
  rfl

theorem exists_loop_eq_play (duty : D → E → E × Bool) (rounds : Nat) (h : Host K D E) :
    ∃ moves, (h.loop duty rounds).2.1 = h.play duty moves := by
  induction rounds generalizing h with
  | zero => exact ⟨[], rfl⟩
  | succ rounds ih =>
    cases hflag : h.scheduler.stopRequested with
    | true =>
      rw [loop_of_stopped duty rounds hflag]
      exact ⟨[], rfl⟩
    | false =>
      obtain ⟨moves, hloop⟩ := ih (h.iterate duty).2
      rw [loop_of_unstopped duty rounds hflag]
      exact ⟨_, hloop.trans (by rw [iterate_eq_play, ← play_append])⟩

/-- The loop ends only when it was told to. -/
theorem stopRequested_of_loop_ended {duty : D → E → E × Bool} {rounds : Nat} {h : Host K D E}
    (hended : (h.loop duty rounds).2.2 = true) :
    (h.loop duty rounds).2.1.scheduler.stopRequested = true := by
  induction rounds generalizing h with
  | zero => cases hended
  | succ rounds ih =>
    cases hflag : h.scheduler.stopRequested with
    | true =>
      rw [loop_of_stopped duty rounds hflag]
      exact hflag
    | false =>
      rw [loop_of_unstopped duty rounds hflag] at hended ⊢
      exact ih hended

/-- The loop thread does nothing but moves. -/
theorem exists_run_eq_play (duty : D → E → E × Bool) (rounds : Nat) (h : Host K D E) :
    ∃ moves, (h.run duty rounds).2.1 =
      ((h.seenFrom true).play duty moves).seenFrom false := by
  obtain ⟨moves, hloop⟩ := exists_loop_eq_play duty rounds (h.seenFrom true)
  have hrun : (h.run duty rounds).2.1 =
      (((h.seenFrom true).loop duty rounds).2.1.seenFrom false).modify
        fun s => { s with alive := s.alive && !((h.seenFrom true).loop duty rounds).2.2 } := rfl
  have hended : ((h.seenFrom true).loop duty rounds).2.2 = true →
      ((h.seenFrom true).loop duty rounds).2.1.scheduler.stopRequested = true :=
    stopRequested_of_loop_ended
  rw [hrun]
  generalize (h.seenFrom true).loop duty rounds = outcome at hloop hended ⊢
  obtain ⟨_, last, ended⟩ := outcome
  cases ended with
  | false =>
    refine ⟨moves, ?_⟩
    rw [← hloop]
    simp [modify, seenFrom]
  | true =>
    refine ⟨moves ++ [.look], ?_⟩
    have hflag : last.scheduler.stopRequested = true := hended rfl
    rw [play_append, ← hloop]
    simp [play, act, modify, seenFrom, hflag]

/-! ## Stops and what comes after -/

/-- What a batch comes to, whichever of its tasks fail, and whatever they stop. -/
theorem spinOnce_counts (duty : D → E → E × Bool) (h : Host K D E) :
    (h.spinOnce duty).started =
      h.started ++ h.scheduler.queue.pending.filterMap Task.jobName? ∧
    (h.spinOnce duty).scheduler.tasksRun = h.scheduler.tasksRun + h.scheduler.pending ∧
    (h.spinOnce duty).scheduler.iterations = h.scheduler.iterations + 1 := by
  have hran := ran_runBatch duty h.scheduler.queue.pending (h.act duty .drain)
  exact ⟨started_runBatch duty h.scheduler.queue.pending (h.act duty .drain),
    congrArg (· + h.scheduler.pending) hran.tasksRun, congrArg (· + 1) hran.iterations⟩

omit [Scalar K] [Titled D] in
/-- What another thread that asks for a stop gets, and what it leaves. -/
theorem stop_of_other (timeout : Option K) {h : Host K D E} (hother : h.onLoopThread = false) :
    ∃ stopped error, h.stop timeout = (stopped, error) ∧
      stopped.started = h.started ∧ stopped.now = h.now ∧ stopped.blocked = h.blocked ∧
      ((h.scheduler.alive && h.blocked) = false ∧ error = none ∧
          stopped.scheduler = { h.scheduler with stopRequested := true, alive := false } ∨
        h.scheduler.alive = true ∧ h.blocked = true ∧
          error = some (.threadBlocked h.scheduler.name) ∧
          stopped.scheduler = { h.scheduler with stopRequested := true }) := by
  obtain ⟨_, _, hstop⟩ := stop_eq timeout h
  refine ⟨_, _, hstop, rfl, rfl, rfl, ?_⟩
  rw [isStuck, hother, Bool.false_or, Bool.not_false, Bool.and_true]
  cases hstuck : h.scheduler.alive && h.blocked with
  | false => exact .inl ⟨rfl, rfl, rfl⟩
  | true =>
    obtain ⟨halive, hblocked⟩ := Bool.and_eq_true_iff.mp hstuck
    refine .inr ⟨halive, hblocked, rfl, ?_⟩
    dsimp only
    rw [halive]

omit [Scalar K] [Titled D] in
theorem stopRequested_stop (timeout : Option K) (h : Host K D E) :
    (h.stop timeout).1.scheduler.stopRequested = true := by
  obtain ⟨_, _, hstop⟩ := stop_eq timeout h
  rw [hstop]

/-- A job that waits in vain is one failure, and the thread is still there. -/
theorem runTask_of_isStuck (duty : D → E → E × Bool) (name : String) (work : K)
    (children : List (Task K D)) (fails : Bool) {h : Host K D E} (hstuck : h.isStuck = true) :
    let failed := h.runTask duty (.job name work children true fails)
    failed.scheduler.tasksFailed = h.scheduler.tasksFailed + 1 ∧
      failed.scheduler.alive = true ∧ failed.scheduler.stopRequested = true := by
  obtain ⟨_, _, _, hfailed⟩ := runTask_job_eq duty name work children true fails h
  have hlives := hstuck
  rw [isStuck, Bool.and_eq_true, Bool.and_eq_true] at hlives
  dsimp only
  rw [hfailed, hstuck]
  refine ⟨?_, ?_, Bool.or_true _⟩
  · simp
  · simp [hlives.1.1, hlives.1.2]

/-- On the loop thread a stop only sets the flag, and when flag and thread are settled it does
nothing. On another thread it leaves the flag set, and either the thread has ended or the wait is an
error; it changes neither the queue nor a count, nor what was run. From then on the flag stays set,
whatever happens, and as soon as nothing blocks the thread a further stop ends it. What does not run
any more never runs again. A job in which a stop fails is one failure, and the rest of its batch is
run as if nothing had happened. -/
theorem stop_settles (duty : D → E → E × Bool) (h : Host K D E) :
    (∀ timeout,
      (h.onLoopThread = true → h.stop timeout = (h.tell, none)) ∧
      (h.scheduler.stopRequested = true → h.scheduler.alive = false →
        h.stop timeout = (h, none)) ∧
      (h.onLoopThread = false → ∃ stopped error, h.stop timeout = (stopped, error) ∧
        stopped.started = h.started ∧ stopped.now = h.now ∧ stopped.blocked = h.blocked ∧
        ((h.scheduler.alive && h.blocked) = false ∧ error = none ∧
            stopped.scheduler = { h.scheduler with stopRequested := true, alive := false } ∨
          h.scheduler.alive = true ∧ h.blocked = true ∧
            error = some (.threadBlocked h.scheduler.name) ∧
            stopped.scheduler = { h.scheduler with stopRequested := true })) ∧
      ∀ moves,
        let later := ((h.stop timeout).1.play duty moves).seenFrom false
        later.scheduler.stopRequested = true ∧
        (later.blocked = false → ∀ timeout', (later.stop timeout').2 = none ∧
          (later.stop timeout').1.scheduler.alive = false)) ∧
    (h.scheduler.isRunning = false → ∀ moves, (h.play duty moves).scheduler.isRunning = false) ∧
    (∀ before name work children fails after,
      h.scheduler.queue.pending = before ++ .job name work children true fails :: after →
      h.isStuck = true →
      let reached := (h.act duty .drain).runBatch duty before
      let failed := reached.runTask duty (.job name work children true fails)
      failed.scheduler.tasksFailed = reached.scheduler.tasksFailed + 1 ∧
      failed.scheduler.alive = true ∧ failed.scheduler.stopRequested = true ∧
      h.spinOnce duty =
        (failed.runBatch duty after).act duty (.count h.scheduler.queue.pending.length)) ∧
    (h.spinOnce duty).started =
      h.started ++ h.scheduler.queue.pending.filterMap Task.jobName? ∧
    (h.spinOnce duty).scheduler.tasksRun = h.scheduler.tasksRun + h.scheduler.pending ∧
    (h.spinOnce duty).scheduler.iterations = h.scheduler.iterations + 1 := by
  refine ⟨fun timeout => ⟨fun hthread => stop_of_onLoopThread hthread timeout, ?_,
    fun hother => stop_of_other timeout hother, ?_⟩,
    fun hstill moves => (ages_play duty moves h).isRunning hstill, ?_, spinOnce_counts duty h⟩
  · intro hflag hdead
    rw [stop, if_pos (by rw [hflag, hdead]; rfl)]
  · intro moves later
    refine ⟨(ages_play duty moves _).told (stopRequested_stop timeout h), fun hfree timeout' => ?_⟩
    obtain ⟨stopped, error, hagain, -, -, -, hended | ⟨-, hblocked, -⟩⟩ :=
      stop_of_other (h := later) timeout' rfl
    · rw [hagain, hended.2.2]
      exact ⟨hended.2.1, rfl⟩
    · rw [hfree] at hblocked
      cases hblocked
  · intro before name work children fails after hbatch hstuck reached failed
    -- What was run before the job left the thread where it is.
    have hreached : reached.isStuck = true :=
      (ran_runBatch duty before (h.act duty .drain)).isStuck hstuck
    obtain ⟨hcount, halive, hflag⟩ := runTask_of_isStuck duty name work children fails hreached
    have hrun := runBatch_append_cons duty before (.job name work children true fails) after
      (h.act duty .drain)
    rw [← hbatch] at hrun
    exact ⟨hcount, halive, hflag,
      congrArg (fun h' => h'.act duty (.count h.scheduler.queue.pending.length)) hrun⟩

end Tasks

end Host

/-! ### A stop in vain -/

/-- A host whose thread cannot end, and which is to run three jobs, the second of which stops it. -/
def blockedHost : Host Float Empty (Journal Float) where
  scheduler :=
    { period := 1, joinTimeout := 5, name := "loop"
      queue := ⟨[.job "first" 0 [] false false, .job "second" 0 [] true false,
        .job "third" 0 [] false false]⟩ }
  now := 0
  blocked := true
  surroundings := {}

/-- The first stop is in vain, and changes the flag only. So is the second one, which a job asks
for; the job fails, and the third one is run nevertheless. Once the thread can end a stop ends it,
and one more does nothing. -/
theorem Host.stop_settles_blockedHost :
    let spun := blockedHost.spinOnce nofun
    let freed := ((blockedHost.stop none).1.play nofun [.drain, .block false]).seenFrom false
    let ended := (freed.stop none).1
    blockedHost.onLoopThread = false ∧ blockedHost.isStuck = true ∧
    (blockedHost.stop none).2 = some (.threadBlocked "loop") ∧
    (blockedHost.stop none).1.scheduler = { blockedHost.scheduler with stopRequested := true } ∧
    spun.started = ["first", "second", "third"] ∧ spun.scheduler.tasksFailed = 1 ∧
    (freed.stop none).2 = none ∧ ended.scheduler.alive = false ∧
    ended.stop none = (ended, none) ∧
    (ended.play nofun [.submit (.job "late" 0 [] false false)]).scheduler.isRunning = false := by
  intro spun freed ended
  obtain ⟨hstops, -, hbatch, hstarted, -⟩ := stop_settles nofun blockedHost
  obtain ⟨-, -, hother, hlater⟩ := hstops none
  obtain ⟨stopped, error, hstop, -, -, -, ⟨hfree, -⟩ | ⟨-, -, herror, hscheduler⟩⟩ := hother rfl
  · cases hfree
  obtain ⟨hcount, -, -, hspun⟩ := hbatch [.job "first" 0 [] false false] "second" 0 [] false
    [.job "third" 0 [] false false] rfl rfl
  obtain ⟨-, hagain⟩ := hlater [.drain, .block false]
  obtain ⟨hfine, hdead⟩ := hagain rfl none
  obtain ⟨hstops', hstill, -⟩ := stop_settles nofun ended
  have hflag' : ended.scheduler.stopRequested = true := stopRequested_stop none freed
  have hended : ended.scheduler.isRunning = false := by
    rw [Scheduler.isRunning, hflag', Bool.not_true, Bool.and_false]
  refine ⟨rfl, rfl, ?_, ?_, hstarted, ?_, hfine, hdead, (hstops' none).2.1 hflag' hdead,
    hstill hended _⟩
  · rw [hstop, herror]
    rfl
  · rw [hstop, hscheduler]
  · refine (congrArg (fun h => h.scheduler.tasksFailed) hspun).trans ?_
    exact hcount

end LiveMap
