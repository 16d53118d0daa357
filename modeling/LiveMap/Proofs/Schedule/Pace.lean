import LiveMap.Proofs.Reals
import LiveMap.Proofs.Schedule.Threads
import Mathlib.Algebra.Order.BigOperators.Group.List
import Mathlib.Tactic.Linarith

/-!
# The pace of the loop

On an exact clock that only work and sleep advance, a round takes as long as its tasks or as the
period, whichever is longer. What a round took is measured around its batch alone, so no round
answers for another: neither an overrun nor a short round is made good later.

## Main definitions

* `Task.work`, `workOf`: how long tasks take; `durationOf`: how long rounds take.
* `TimedStep`, `TimedTrace`: steps of a loop thread that reads the clock around its batches.
* `batchesIn`: the tasks begun by steps, round by round.
* `Paced`: where the clock stands, by the rounds so far.
* `Host.batches`: what the loop runs when no other thread interferes.

## Main statements

* `slept_throttle`: the sleep of a round.
* `TimedStep.paced`, `TimedTrace.paced`: one step, and many.
* `Host.loop_paced`: the rounds of the loop by itself.
* `rounds_keep_pace`: both.
-/

namespace LiveMap

variable {D E : Type}

/-! ## The sleep -/

/-- A sleep makes up for what is left of the period. -/
theorem slept_throttle (period elapsed : ℝ) :
    slept (throttle period elapsed) = max 0 (period - elapsed) := by
  unfold throttle
  split
  next hover =>
    rw [max_eq_left hover]
    rfl
  next hleft =>
    rw [max_eq_right (not_le.mp hleft).le]
    rfl

/-- No sleep is asked for when nothing is left of the period. -/
theorem throttle_eq (period elapsed : ℝ) :
    throttle period elapsed = if elapsed < period then some (period - elapsed) else none := by
  rw [throttle]
  by_cases hleft : elapsed < period
  · rw [if_pos hleft, if_neg (not_le.mpr (sub_pos.mpr hleft))]
  · rw [if_neg hleft, if_pos (sub_nonpos.mpr (not_lt.mp hleft))]

theorem add_max_zero_sub (period elapsed : ℝ) :
    elapsed + max 0 (period - elapsed) = max period elapsed := by
  rw [← max_add_add_left, add_zero, add_sub_cancel, max_comm]

/-- The time that a task takes. -/
noncomputable def Task.work : Task ℝ D → ℝ
  | .job _ work _ _ _ => work
  | .duty _ => 0

/-- The time that tasks take, one after the other. -/
noncomputable def workOf (batch : List (Task ℝ D)) : ℝ := (batch.map Task.work).sum

/-- The time that rounds take, each as long as its batch or as the period. -/
noncomputable def durationOf (period : ℝ) (batches : List (List (Task ℝ D))) : ℝ :=
  (batches.map fun batch => max period (workOf batch)).sum

theorem workOf_append (batch more : List (Task ℝ D)) :
    workOf (batch ++ more) = workOf batch + workOf more := by
  rw [workOf, List.map_append, List.sum_append, workOf, workOf]

theorem workOf_concat (batch : List (Task ℝ D)) (task : Task ℝ D) :
    workOf (batch ++ [task]) = workOf batch + task.work := by
  rw [workOf_append]
  exact congrArg (workOf batch + ·) (add_zero task.work)

theorem durationOf_concat (period : ℝ) (batches : List (List (Task ℝ D)))
    (batch : List (Task ℝ D)) :
    durationOf period (batches ++ [batch]) =
      durationOf period batches + (workOf batch + max 0 (period - workOf batch)) := by
  rw [durationOf, List.map_append, List.sum_append, durationOf, add_max_zero_sub]
  exact congrArg (_ + ·) (add_zero _)

/-- No round is shorter than the period. -/
theorem length_mul_le_durationOf (period : ℝ) (batches : List (List (Task ℝ D))) :
    batches.length * period ≤ durationOf period batches := by
  induction batches using List.reverseRecOn with
  | nil => simp [durationOf]
  | append_singleton batches batch ih =>
    have hround : period ≤ workOf batch + max 0 (period - workOf batch) := by
      rw [add_max_zero_sub]
      exact le_max_left _ _
    rw [durationOf_concat, List.length_append, List.length_singleton]
    push_cast
    linarith

/-! ## Steps on the clock -/

section Steps

variable [Noted E ℝ] [Titled D]

/-- A step on a clock that only work and sleep advance, with the time that the loop thread read when
its round began. -/
inductive TimedStep (duty : D → E → E × Bool) :
    LoopState ℝ D E × ℝ → LoopEvent ℝ D → LoopState ℝ D E × ℝ → Prop where
  /-- The thread reads the clock as it goes on. -/
  | goOn (h : Host ℝ D E) (began : ℝ) (hflag : h.scheduler.stopRequested = false) :
    TimedStep duty (⟨h, .look⟩, began) .other (⟨h, .drain⟩, h.now)
  /-- The thread reads the clock again when its batch is done. -/
  | count (taken : Nat) (h : Host ℝ D E) (began : ℝ) :
    TimedStep duty (⟨h, .batch taken []⟩, began) .other
      (⟨h.modify fun s =>
        { s with tasksRun := s.tasksRun + taken, iterations := s.iterations + 1 },
        .rest (h.now - began)⟩, began)
  /-- Any other step. Who leaves the loop thread where it is leaves the clock alone. -/
  | other {s t : LoopState ℝ D E} {event : LoopEvent ℝ D} (began : ℝ)
    (step : LoopStep duty s event t) (hgoing : s.point = .look → t.point ≠ .drain)
    (hcounting : ∀ elapsed, t.point = .rest elapsed → s.point = .rest elapsed)
    (hclock : t.point = s.point → t.host.now = s.host.now) :
    TimedStep duty (s, began) event (t, began)

/-- Steps one after the other. -/
inductive TimedTrace (duty : D → E → E × Bool) :
    LoopState ℝ D E × ℝ → List (LoopEvent ℝ D) → LoopState ℝ D E × ℝ → Prop where
  | nil (s : LoopState ℝ D E × ℝ) : TimedTrace duty s [] s
  | cons {s t u : LoopState ℝ D E × ℝ} {event : LoopEvent ℝ D} {events : List (LoopEvent ℝ D)}
    (step : TimedStep duty s event t) (later : TimedTrace duty t events u) :
    TimedTrace duty s (event :: events) u

theorem TimedTrace.append {duty : D → E → E × Bool} {s t u : LoopState ℝ D E × ℝ}
    {events later : List (LoopEvent ℝ D)} (h : TimedTrace duty s events t)
    (h' : TimedTrace duty t later u) : TimedTrace duty s (events ++ later) u := by
  induction h with
  | nil => exact h'
  | cons step _ ih => exact .cons step (ih h')

end Steps

/-! ## Batches -/

/-- The batches after one more event: a drain opens one, and what is begun belongs to the last. -/
def LoopEvent.track (batches : List (List (Task ℝ D))) :
    LoopEvent ℝ D → List (List (Task ℝ D))
  | .drained => batches ++ [[]]
  | .begun task => batches.dropLast ++ [batches.getLast?.getD [] ++ [task]]
  | .submitted _ | .other => batches

/-- The tasks that were begun, drain by drain. -/
def batchesIn (events : List (LoopEvent ℝ D)) : List (List (Task ℝ D)) :=
  events.foldl LoopEvent.track []

theorem LoopEvent.track_begun (done : List (List (Task ℝ D))) (batch : List (Task ℝ D))
    (task : Task ℝ D) :
    (LoopEvent.begun task).track (done ++ [batch]) = done ++ [batch ++ [task]] := by
  rw [track, List.dropLast_concat, List.getLast?_concat, Option.getD_some]

/-- The batch that is open, and the clock since it was taken. -/
structure Amid (period start : ℝ) (batches done : List (List (Task ℝ D))) (batch : List (Task ℝ D))
    (began now : ℝ) : Prop where
  batches_eq : batches = done ++ [batch]
  began_eq : began = start + durationOf period done
  now_eq : now = began + workOf batch

/-- Where the clock stands: rounds that are over took what they take, and the one that is not over
took the work of its tasks so far, counted from where it began. -/
def Paced (period start : ℝ) (batches : List (List (Task ℝ D))) (began now : ℝ) :
    LoopPoint ℝ D → Prop
  | .look | .ended => now = start + durationOf period batches
  | .drain => now = start + durationOf period batches ∧ began = now
  | .batch _ _ | .job _ _ _ => ∃ done batch, Amid period start batches done batch began now
  | .rest elapsed => ∃ done batch, Amid period start batches done batch began now ∧
      elapsed = workOf batch

/-- One more task of the batch. -/
theorem Amid.begin {period start : ℝ} {batches done : List (List (Task ℝ D))}
    {batch : List (Task ℝ D)} {began now : ℝ} (h : Amid period start batches done batch began now)
    (task : Task ℝ D) : Amid period start ((LoopEvent.begun task).track batches) done
      (batch ++ [task]) began (now + task.work) where
  batches_eq := by rw [h.batches_eq, LoopEvent.track_begun]
  began_eq := h.began_eq
  now_eq := by rw [workOf_concat, ← add_assoc, h.now_eq]

/-! ## One step -/

section Steps

variable [Noted E ℝ] [Titled D] {duty : D → E → E × Bool}

theorem Host.now_submit (task : Task ℝ D) (h : Host ℝ D E) : (h.submit task).now = h.now := by
  unfold submit
  split <;> rfl

omit [Noted E ℝ] [Titled D] in
theorem Host.now_rest (elapsed : ℝ) (h : Host ℝ D E) :
    (h.rest elapsed).now = h.now + max 0 (h.scheduler.period - elapsed) := by
  rw [← slept_throttle]
  unfold rest
  cases throttle h.scheduler.period elapsed with
  | none => exact (add_zero _).symm
  | some sleep => rfl

namespace LoopStep

variable {s t : LoopState ℝ D E} {event : LoopEvent ℝ D}

theorem period_eq (h : LoopStep duty s event t) :
    t.host.scheduler.period = s.host.scheduler.period := by
  cases h with
  | submit | child => simp [Scheduler.submit]
  | beginDuty d taken left h =>
    obtain ⟨_, _, hrun⟩ := h.runTask_duty duty d
    rw [hrun]
  | rest elapsed h => simp
  | _ => rfl

/-- A step that is not timed by readings of the clock. -/
theorem paced (h : LoopStep duty s event t) {start began : ℝ} {batches : List (List (Task ℝ D))}
    (hgoing : s.point = .look → t.point ≠ .drain)
    (hcounting : ∀ elapsed, t.point = .rest elapsed → s.point = .rest elapsed)
    (hclock : t.point = s.point → t.host.now = s.host.now)
    (hpaced : Paced s.host.scheduler.period start batches began s.host.now s.point) :
    Paced s.host.scheduler.period start (event.track batches) began t.host.now t.point := by
  cases h with
  | submit task h point | tell h point | elsewhere now blocked joins surroundings h point =>
    rw [hclock rfl]
    exact hpaced
  | finish h hflag => exact hpaced
  | goOn h hflag => exact absurd rfl (hgoing rfl)
  | drain h =>
    obtain ⟨hnow, hbegan⟩ := hpaced
    exact ⟨batches, [], rfl, hbegan.trans hnow, hbegan ▸ (add_zero began).symm⟩
  | beginDuty d taken left h =>
    obtain ⟨_, _, hrun⟩ := h.runTask_duty duty d
    obtain ⟨done, batch, hamid⟩ := hpaced
    have hbegun := hamid.begin (.duty d)
    rw [Task.work, add_zero] at hbegun
    rw [hrun]
    exact ⟨done, _, hbegun⟩
  | beginJob name work children stops fails taken left h =>
    obtain ⟨done, batch, hamid⟩ := hpaced
    exact ⟨done, _, hamid.begin (.job name work children stops fails)⟩
  | child name child children stops fails taken left h =>
    rw [Host.now_submit]
    exact hpaced
  | stop | succeed | fail => exact hpaced
  | count taken elapsed h => cases hcounting elapsed rfl
  | rest elapsed h =>
    obtain ⟨done, batch, hamid, helapsed⟩ := hpaced
    change (h.rest elapsed).now = start + durationOf h.scheduler.period batches
    rw [Host.now_rest, hamid.batches_eq, durationOf_concat, hamid.now_eq, hamid.began_eq, helapsed]
    ring

end LoopStep

namespace TimedStep

variable {s t : LoopState ℝ D E} {began began' : ℝ} {event : LoopEvent ℝ D}

theorem untimed (h : TimedStep duty (s, began) event (t, began')) : LoopStep duty s event t := by
  cases h with
  | goOn h began hflag => exact .goOn h hflag
  | count taken h began => exact .count taken _ h
  | other began step => exact step

theorem paced (h : TimedStep duty (s, began) event (t, began')) {start : ℝ}
    {batches : List (List (Task ℝ D))}
    (hpaced : Paced s.host.scheduler.period start batches began s.host.now s.point) :
    Paced t.host.scheduler.period start (event.track batches) began' t.host.now t.point := by
  rw [h.untimed.period_eq]
  cases h with
  | goOn h began hflag => exact ⟨hpaced, rfl⟩
  | count taken h began =>
    obtain ⟨done, batch, hamid⟩ := hpaced
    have helapsed : h.now - began = workOf batch := by rw [hamid.now_eq, add_sub_cancel_left]
    exact ⟨done, batch, hamid, helapsed⟩
  | other began step hgoing hcounting hclock => exact step.paced hgoing hcounting hclock hpaced

end TimedStep

/-- By induction on the steps, wherever the loop thread is. -/
theorem TimedTrace.paced {s t : LoopState ℝ D E × ℝ} {events : List (LoopEvent ℝ D)}
    (h : TimedTrace duty s events t) {start : ℝ} {batches : List (List (Task ℝ D))}
    (hpaced : Paced s.1.host.scheduler.period start batches s.2 s.1.host.now s.1.point) :
    t.1.host.scheduler.period = s.1.host.scheduler.period ∧
      Paced t.1.host.scheduler.period start (events.foldl LoopEvent.track batches) t.2
        t.1.host.now t.1.point := by
  induction h generalizing batches with
  | nil => exact ⟨rfl, hpaced⟩
  | cons step _ ih =>
    obtain ⟨hperiod, hlater⟩ := ih (step.paced hpaced)
    exact ⟨hperiod.trans step.untimed.period_eq, hlater⟩

/-- The clock from a look at the stop flag on. -/
theorem TimedTrace.paced_of_look {s t : LoopState ℝ D E} {began began' : ℝ}
    {events : List (LoopEvent ℝ D)} (h : TimedTrace duty (s, began) events (t, began'))
    (hlook : s.point = .look) :
    t.host.scheduler.period = s.host.scheduler.period ∧
      Paced s.host.scheduler.period s.host.now (batchesIn events) began' t.host.now t.point := by
  have hstart : Paced s.host.scheduler.period s.host.now [] began s.host.now s.point := by
    rw [hlook]
    exact (add_zero _).symm
  obtain ⟨hperiod, hpaced⟩ := h.paced hstart
  exact ⟨hperiod, hperiod ▸ hpaced⟩

/-! ## The loop by itself -/

namespace Host

variable (duty) in
theorem now_runTask (task : Task ℝ D) {h : Host ℝ D E} (hthread : h.onLoopThread = true) :
    (h.runTask duty task).now = h.now + task.work ∧
      (h.runTask duty task).scheduler.period = h.scheduler.period := by
  cases task with
  | duty d =>
    obtain ⟨_, _, hrun⟩ := h.runTask_duty duty d
    rw [hrun]
    exact ⟨(add_zero _).symm, rfl⟩
  | job name work children stops fails =>
    obtain ⟨_, hsubmitted⟩ :=
      submitAll_eq children { h with started := h.started ++ [name], now := h.now + work }
    rw [runTask_job duty name work children stops fails hthread]
    dsimp only
    rw [hsubmitted]
    cases stops <;> cases fails <;> exact ⟨rfl, rfl⟩

variable (duty) in
theorem now_runBatch (batch : List (Task ℝ D)) {h : Host ℝ D E} (hthread : h.onLoopThread = true) :
    (h.runBatch duty batch).now = h.now + workOf batch ∧
      (h.runBatch duty batch).scheduler.period = h.scheduler.period := by
  induction batch generalizing h with
  | nil => exact ⟨(add_zero _).symm, rfl⟩
  | cons task rest ih =>
    obtain ⟨hnow, hperiod⟩ := now_runTask duty task hthread
    obtain ⟨hlater, hkept⟩ := ih (onLoopThread_runTask duty task hthread)
    have hwork : workOf (task :: rest) = task.work + workOf rest := rfl
    refine ⟨?_, hkept.trans hperiod⟩
    rw [hwork, ← add_assoc, ← hnow]
    exact hlater

variable (duty) in
/-- The batches of at most `rounds` rounds that no other thread interferes with. -/
noncomputable def batches : Nat → Host ℝ D E → List (List (Task ℝ D))
  | 0, _ => []
  | rounds + 1, h =>
    if h.scheduler.stopRequested then []
    else h.scheduler.queue.pending :: batches rounds (h.iterate duty).2

variable (duty) in
/-- A round takes its batch or the period, whichever is longer. -/
theorem iterate_paced {h : Host ℝ D E} (hthread : h.onLoopThread = true) :
    (h.iterate duty).1 =
      ⟨workOf h.scheduler.queue.pending,
        max 0 (h.scheduler.period - workOf h.scheduler.queue.pending)⟩ ∧
    (h.iterate duty).2.now =
      h.now + max h.scheduler.period (workOf h.scheduler.queue.pending) ∧
    (h.iterate duty).2.scheduler.period = h.scheduler.period := by
  obtain ⟨hnow, hperiod⟩ := now_runBatch duty h.scheduler.queue.pending
    (h := h.modify fun s => { s with queue := h.scheduler.queue.drain.2 }) hthread
  have hspun : (h.spinOnce duty).now = h.now + workOf h.scheduler.queue.pending := hnow
  have hkept : (h.spinOnce duty).scheduler.period = h.scheduler.period := hperiod
  have helapsed : (h.spinOnce duty).now - h.now = workOf h.scheduler.queue.pending := by
    rw [hspun, add_sub_cancel_left]
  unfold iterate
  dsimp only
  rw [helapsed, now_rest, scheduler_rest, hkept, slept_throttle, hspun, add_assoc,
    add_max_zero_sub]
  exact ⟨rfl, rfl, rfl⟩

variable (duty) in
/-- By induction on the rounds, each of which keeps its own time. -/
theorem loop_paced (rounds : Nat) {h : Host ℝ D E} (hthread : h.onLoopThread = true) :
    (h.loop duty rounds).1 = (h.batches duty rounds).map (fun batch =>
      ⟨workOf batch, max 0 (h.scheduler.period - workOf batch)⟩) ∧
    (h.loop duty rounds).2.1.now =
      h.now + durationOf h.scheduler.period (h.batches duty rounds) := by
  induction rounds generalizing h with
  | zero => exact ⟨rfl, (add_zero _).symm⟩
  | succ rounds ih =>
    cases hflag : h.scheduler.stopRequested with
    | true =>
      rw [loop_of_stopped duty rounds hflag, batches, if_pos hflag]
      exact ⟨rfl, (add_zero _).symm⟩
    | false =>
      obtain ⟨hround, hnow, hperiod⟩ := iterate_paced duty hthread
      obtain ⟨hrounds, hlater⟩ := ih (onLoopThread_iterate duty hthread)
      have hunset : ¬ h.scheduler.stopRequested = true := by rw [hflag]; exact Bool.false_ne_true
      rw [loop_of_unstopped duty rounds hflag, batches, if_neg hunset, hrounds, hround, hlater,
        hnow, hperiod]
      refine ⟨rfl, ?_⟩
      rw [add_assoc]
      rfl

end Host

/-- However the threads interleave, from any look at the stop flag on: the rounds that are over took
their batch or the period, whichever is longer; a round begins where the one before it ended; and
what is slept in a round is what its own batch left of the period. The same holds of the rounds that
the loop runs by itself. -/
theorem rounds_keep_pace (duty : D → E → E × Bool) :
    (∀ {s t : LoopState ℝ D E} {began began' : ℝ} {events : List (LoopEvent ℝ D)},
      s.point = .look → TimedTrace duty (s, began) events (t, began') →
      let period := s.host.scheduler.period
      let batches := batchesIn events
      (t.point = .look ∨ t.point = .drain →
        t.host.now = s.host.now + durationOf period batches ∧
        s.host.now + batches.length * period ≤ t.host.now) ∧
      (t.point = .drain → began' = t.host.now) ∧
      ∀ elapsed, t.point = .rest elapsed → ∃ done batch, batches = done ++ [batch] ∧
        began' = s.host.now + durationOf period done ∧ t.host.now = began' + workOf batch ∧
        elapsed = workOf batch ∧
        throttle t.host.scheduler.period elapsed =
          (if workOf batch < period then some (period - workOf batch) else none) ∧
        slept (throttle t.host.scheduler.period elapsed) = max 0 (period - workOf batch)) ∧
    ∀ (h : Host ℝ D E) (rounds : Nat),
      let period := h.scheduler.period
      let batches := { h with onLoopThread := true }.batches duty rounds
      (h.run duty rounds).1 = batches.map (fun batch =>
        ⟨workOf batch, max 0 (period - workOf batch)⟩) ∧
      (h.run duty rounds).2.1.now = h.now + durationOf period batches ∧
      h.now + batches.length * period ≤ (h.run duty rounds).2.1.now := by
  refine ⟨?_, ?_⟩
  · intro s t began began' events hlook h period batches
    obtain ⟨hkept, hpaced⟩ := h.paced_of_look hlook
    have hleast := length_mul_le_durationOf period batches
    refine ⟨?_, ?_, ?_⟩
    · rintro (hpoint | hpoint)
      · rw [hpoint] at hpaced
        have hnow : t.host.now = s.host.now + durationOf period batches := hpaced
        exact ⟨hnow, by linarith⟩
      · rw [hpoint] at hpaced
        have hnow : t.host.now = s.host.now + durationOf period batches := hpaced.1
        exact ⟨hnow, by linarith⟩
    · intro hpoint
      rw [hpoint] at hpaced
      exact hpaced.2
    · intro elapsed hpoint
      rw [hpoint] at hpaced
      obtain ⟨done, batch, hamid, rfl⟩ := hpaced
      rw [hkept]
      exact ⟨done, batch, hamid.batches_eq, hamid.began_eq, hamid.now_eq, rfl, throttle_eq _ _,
        slept_throttle _ _⟩
  · intro h rounds period batches
    obtain ⟨hrounds, hnow⟩ :=
      Host.loop_paced (h := { h with onLoopThread := true }) duty rounds rfl
    have hleast := length_mul_le_durationOf period batches
    have hrun : (h.run duty rounds).2.1.now = h.now + durationOf period batches := hnow
    exact ⟨hrounds, hrun, by linarith⟩

end Steps

/-- There are no duties. -/
def noDuty : Empty → Journal ℝ → Journal ℝ × Bool := nofun

/-- A job without work. -/
def idleJob (name : String) : Task ℝ Empty := .job name 0 [] false false

/-- A job that takes the whole period, submits another one and fails. -/
def longJob : Task ℝ Empty := .job "long" 1 [idleJob "child"] false true

def secondJob : Task ℝ Empty := .job "second" 1 [] false false

/-- A loop with two jobs that wait, about to look at its stop flag. -/
def beforeOverrun : LoopState ℝ Empty (Journal ℝ) where
  host :=
    { scheduler :=
        { period := 1, joinTimeout := 1, name := "loop", queue := ⟨[longJob, secondJob]⟩ }
      now := 0, onLoopThread := true, surroundings := {} }
  point := .look

/-- Both jobs are run, up to the sleep; another thread submits something meanwhile. -/
def overrun : List (LoopEvent ℝ Empty) :=
  [.other, .drained, .begun longJob, .submitted (idleJob "late"), .submitted (idleJob "child"),
    .other, .begun secondJob, .other, .other]

theorem exists_overrun : ∃ (h : Host ℝ Empty (Journal ℝ)) (elapsed began : ℝ),
    TimedTrace noDuty (beforeOverrun, 0) overrun (⟨h, .rest elapsed⟩, began) :=
  ⟨_, _, _, .cons (.goOn _ _ rfl) <|
    .cons (.other _ (.drain _) nofun nofun nofun) <|
    .cons (.other _ (.beginJob ..) nofun nofun nofun) <|
    .cons (.other _ (.submit ..) nofun nofun fun _ => Host.now_submit _ _) <|
    .cons (.other _ (.child ..) nofun nofun nofun) <|
    .cons (.other _ (.fail ..) nofun nofun nofun) <|
    .cons (.other _ (.beginJob ..) nofun nofun nofun) <|
    .cons (.other _ (.succeed ..) nofun nofun nofun) <|
    .cons (.count ..) (.nil _)⟩

/-- The thread does not sleep after an overrun, and the round takes as long as its jobs. -/
theorem rounds_keep_pace_overrun : ∃ (h : Host ℝ Empty (Journal ℝ)) (elapsed began : ℝ),
    TimedTrace noDuty (beforeOverrun, 0) overrun (⟨h, .rest elapsed⟩, began) ∧
    elapsed = 1 + 1 ∧ throttle h.scheduler.period elapsed = none ∧
    TimedTrace noDuty (beforeOverrun, 0) (overrun ++ [.other]) (⟨h.rest elapsed, .look⟩, began) ∧
    (h.rest elapsed).now = 1 + 1 := by
  obtain ⟨h, elapsed, began, htrace⟩ := exists_overrun
  have hrest : TimedTrace noDuty (beforeOverrun, 0) (overrun ++ [.other])
      (⟨h.rest elapsed, .look⟩, began) :=
    htrace.append (.cons (.other _ (.rest elapsed h) nofun nofun nofun) (.nil _))
  have hwork : workOf [longJob, secondJob] = 1 + 1 := by
    simp [workOf, Task.work, longJob, secondJob]
  have hover : ¬ (1 + 1 : ℝ) < 1 := by norm_num
  obtain ⟨hpace, -⟩ := rounds_keep_pace noDuty
  obtain ⟨-, -, hslept⟩ := hpace rfl htrace
  obtain ⟨done, batch, hbatches, -, -, helapsed, hthrottle, -⟩ := hslept elapsed rfl
  obtain ⟨hlooked, -, -⟩ := hpace rfl hrest
  obtain ⟨hnow, -⟩ := hlooked (.inl rfl)
  have hbatch : [] ++ [[longJob, secondJob]] = done ++ [batch] := hbatches
  obtain ⟨rfl, hlast⟩ := List.append_inj' hbatch rfl
  obtain rfl := List.singleton_inj.mp hlast
  rw [hwork] at helapsed hthrottle
  refine ⟨h, elapsed, began, htrace, helapsed, hthrottle.trans (if_neg hover), hrest, ?_⟩
  rw [hnow]
  change (0 : ℝ) + (max 1 (workOf [longJob, secondJob]) + 0) = 1 + 1
  rw [hwork, zero_add, add_zero, max_eq_right (not_lt.mp hover)]

end LiveMap
