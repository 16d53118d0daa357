import LiveMap.Proofs.Bus.Offers
import LiveMap.Proofs.Schedule.Stopping
import LiveMap.Session.Pipeline

/-!
# What viewers leave alone

Whatever a viewer does, it tells at its own outputs only, and its scheduler only ages: a thread that
has ended does not come back, and a stop flag stays set.

## Main definitions

* `Station.Tells`: all that was told was told at the outputs of one viewer.
* `Host.Acts`: that, and a scheduler that only ages.

## Main statements

* `Station.Tells.newFrame`, `Station.Tells.rebuildMap`: a frame and a rebuild.
* `Host.Acts.run`, `Host.Acts.stop`, `Host.Acts.updateSubmaps`: the loop, and what reaches a host.
* `Host.ended_of_stop`: a thread that could be stopped has ended.
-/

namespace LiveMap

/-! ## Stations -/

variable {K ρ : Type}

namespace Station

/-- What was told between two states of a station was told at the outputs of its viewer. -/
structure Tells (s s' : Station K ρ) : Prop where
  id : s'.id = s.id
  sent : ∃ told, s'.bus.sent = s.bus.sent ++ told ∧ ∀ p ∈ told, p.1.1 = s.id
  published : ∀ a : Address, a.1 ≠ s.id →
    (s'.bus.channels a).published = (s.bus.channels a).published

namespace Tells

variable {s s' s'' : Station K ρ}

/-- Nothing was told. -/
theorem quiet (hid : s'.id = s.id) (hsent : s'.bus.sent = s.bus.sent)
    (hchannels : s'.bus.channels = s.bus.channels) : Tells s s' :=
  ⟨hid, ⟨[], by rw [hsent, List.append_nil], nofun⟩, fun a _ => by rw [hchannels]⟩

theorem refl (s : Station K ρ) : Tells s s := quiet rfl rfl rfl

theorem trans (h : Tells s s') (h' : Tells s' s'') : Tells s s'' := by
  obtain ⟨told, htold, hown⟩ := h.sent
  obtain ⟨told', htold', hown'⟩ := h'.sent
  refine ⟨h'.id.trans h.id, ⟨told ++ told', ?_, ?_⟩, ?_⟩
  · rw [htold', htold, List.append_assoc]
  · intro p hp
    rcases List.mem_append.mp hp with hp | hp
    · exact hown p hp
    · exact (hown' p hp).trans h.id
  · exact fun a ha => (h'.published a (h.id ▸ ha)).trans (h.published a ha)

theorem note (n : Notice K) (h : Tells s s') : Tells s (LiveMap.note n s') :=
  h.trans (quiet rfl rfl rfl)

theorem noteAll (notices : List (Notice K)) (h : Tells s s') : Tells s (s'.noteAll notices) := by
  rw [noteAll_eq]
  exact h.trans (quiet rfl rfl rfl)

theorem count (f : Stats → Stats) (h : Tells s s') : Tells s (s'.count f) :=
  h.trans (quiet rfl rfl rfl)

variable [Scalar K]

theorem publish (o : Output) (m : Message K) (h : Tells s s') : Tells s (s'.publish o m) := by
  refine h.trans ⟨rfl, ⟨[((s'.id, o), m)], Bus.sent_publish _ _ _, by simp⟩, ?_⟩
  intro a ha
  have hne : a ≠ (s'.id, o) := fun heq => ha (congrArg Prod.fst heq)
  exact (Bus.published_publish _ _ _ _).trans (by rw [if_neg hne, Nat.add_zero])

/-! ### Frames -/

theorem publishScan (f : EstimationFrame K) (h : Tells s s') :
    Tells s (FrameRun.publishScan f s') := by
  unfold FrameRun.publishScan
  split
  · exact (h.count _).publish _ _
  · exact h

/-- By cases on the step: most of them publish at most one message. -/
theorem perform (f : EstimationFrame K) (step : FrameStep) {run : FrameRun K ρ}
    (h : Tells s run.station) : Tells s (run.perform f step).1.station := by
  cases step with
  | scan => exact publishScan f (h.count _)
  | sample => exact h.trans (quiet rfl rfl rfl)
  | relation r =>
    unfold FrameRun.perform FrameRun.publishRelation
    dsimp only
    split
    · exact h.publish _ _
    · exact h
  | odometry =>
    unfold FrameRun.perform FrameRun.publishOdometry
    dsimp only
    split
    · split
      · exact (h.publish _ _).trans (quiet rfl rfl rfl)
      · exact h
    · exact h
  | pose =>
    unfold FrameRun.perform FrameRun.publishPose
    dsimp only
    split
    · split
      · exact (h.publish _ _).trans (quiet rfl rfl rfl)
      · exact h
    · exact h
  | report => exact h.note _

theorem newFrame (f : EstimationFrame K) (s : Station K ρ) : Tells s (s.newFrame f).1 := by
  have hrun : Tells s
      (invokeAll (FrameRun.perform f) FrameStep.all ⟨s, .identity, .identity⟩).1.station :=
    invokeAll_preserves (P := fun run : FrameRun K ρ => Tells s run.station)
      (fun step _ _ hrun => perform f step hrun) (refl s)
  exact hrun

/-! ### Maps -/

theorem rebuildMap (r : Rebuild K) (s : Station K ρ) : Tells s (s.rebuildMap r).1 := by
  have hretained : Tells s (s.retain r.submaps) :=
    ((refl s).noteAll _).trans (quiet rfl rfl rfl)
  unfold Station.rebuildMap
  dsimp only
  split
  · split
    next globalMap _ =>
      have hmerged : Tells s { s.retain r.submaps with
          viewer := { (s.retain r.submaps).viewer with globalMap } } :=
        hretained.trans (quiet rfl rfl rfl)
      unfold publishMap
      exact ((hmerged.publish _ _).count _).note _
    next => exact hretained
  · exact hretained

theorem correctAnchor (latest : Submap K) (h : Tells s s') : Tells s (s'.correctAnchor latest) :=
  (h.noteAll _).trans (quiet rfl rfl rfl)

end Tells

end Station

/-! ## Hosts -/

namespace Host

/-- What a viewer may do to its surroundings. -/
structure Acts (h h' : ViewerHost K ρ) : Prop where
  scheduler : h.scheduler.Ages h'.scheduler
  station : h.surroundings.Tells h'.surroundings

/-- A thread that could be stopped, by another one, was told to end and has ended. -/
theorem ended_of_stop {D E : Type} [Noted E K] {h h' : Host K D E} {timeout : Option K}
    (hthread : h.onLoopThread = false) (hstop : h.stop timeout = (h', none)) :
    h'.scheduler.alive = false ∧ h'.scheduler.stopRequested = true := by
  obtain ⟨stopped, error, hstop', -, -, -, hcase⟩ := stop_of_other timeout hthread
  obtain ⟨rfl, rfl⟩ := Prod.mk.inj (hstop'.symm.trans hstop)
  obtain ⟨-, -, hscheduler⟩ | ⟨-, -, hfailed, -⟩ := hcase
  · rw [hscheduler]
    exact ⟨rfl, rfl⟩
  · cases hfailed

namespace Acts

variable {h h' h'' : ViewerHost K ρ}

/-- Nothing happened to the thread, the flag and the surroundings. -/
theorem quiet (halive : h'.scheduler.alive = h.scheduler.alive)
    (hflag : h'.scheduler.stopRequested = h.scheduler.stopRequested)
    (hsurroundings : h'.surroundings = h.surroundings) : Acts h h' :=
  ⟨.quiet halive hflag, by rw [hsurroundings]; exact .refl _⟩

theorem refl (h : ViewerHost K ρ) : Acts h h := quiet rfl rfl rfl

theorem trans (hs : Acts h h') (hs' : Acts h' h'') : Acts h h'' :=
  ⟨hs.scheduler.trans hs'.scheduler, hs.station.trans hs'.station⟩

theorem note (n : Notice K) (hs : Acts h h') : Acts h (LiveMap.note n h') :=
  ⟨hs.scheduler, hs.station.note n⟩

theorem tell (hs : Acts h h') : Acts h h'.tell :=
  hs.trans ⟨⟨id, fun _ => rfl⟩, .refl _⟩

theorem submit (task : Task K (Rebuild K)) (hs : Acts h h') : Acts h (h'.submit task) := by
  unfold Host.submit
  split
  · exact (hs.note _).trans (quiet rfl rfl rfl)
  · exact hs.trans (quiet rfl rfl rfl)

theorem submitAll (tasks : List (Task K (Rebuild K))) (hs : Acts h h') :
    Acts h (tasks.foldl (fun h task => h.submit task) h') := by
  induction tasks generalizing h' with
  | nil => exact hs
  | cons task rest ih => exact ih (hs.submit task)

theorem join (timeout : K) (hs : Acts h h') : Acts h (h'.join timeout).1 := by
  have hjoined : Acts h { h' with
      scheduler := { h'.scheduler with alive := h'.scheduler.alive && h'.blocked }
      joins := h'.joins ++ [timeout] } :=
    hs.trans ⟨⟨fun hdead => Bool.and_eq_false_iff.mpr (.inl hdead), id⟩, .refl _⟩
  unfold Host.join
  dsimp only
  split
  · exact hjoined.note _
  · split
    · exact hjoined.note _
    · exact (hjoined.note _).note _

theorem stop (timeout : Option K) (hs : Acts h h') : Acts h (h'.stop timeout).1 := by
  unfold Host.stop
  dsimp only
  split
  · exact hs
  · split
    · exact hs.tell
    · exact hs.tell.join _

variable [Scalar K]

/-! ### The loop -/

theorem perform (task : Task K (Rebuild K)) (h : ViewerHost K ρ) :
    Acts h (h.perform Station.rebuildMap task).1 := by
  cases task with
  | duty r => exact ⟨.refl _, .rebuildMap r h.surroundings⟩
  | job name work children stops fails =>
    have hstarted : Acts h { h with started := h.started ++ [name], now := h.now + work } :=
      quiet rfl rfl rfl
    have hsubmitted := hstarted.submitAll children
    rw [perform_job]
    dsimp only
    split
    · exact hsubmitted.stop none
    · exact hsubmitted

theorem runTask (task : Task K (Rebuild K)) (h : ViewerHost K ρ) :
    Acts h (h.runTask Station.rebuildMap task) := by
  have hperformed := perform task h
  have hcounted (g : ViewerHost K ρ) :
      Acts g (g.modify fun s => { s with tasksFailed := s.tasksFailed + 1 }) := quiet rfl rfl rfl
  rw [runTask_eq]
  split
  · exact hperformed
  · exact (hperformed.trans (hcounted _)).note _

theorem runBatch (batch : List (Task K (Rebuild K))) (hs : Acts h h') :
    Acts h (h'.runBatch Station.rebuildMap batch) := by
  induction batch generalizing h' with
  | nil => exact hs
  | cons task rest ih => exact ih (hs.trans (runTask task h'))

theorem spinOnce (h : ViewerHost K ρ) : Acts h (h.spinOnce Station.rebuildMap) := by
  have hdrained : Acts h (h.modify fun s => { s with queue := {} }) := quiet rfl rfl rfl
  exact (hdrained.runBatch h.scheduler.queue.pending).trans (quiet rfl rfl rfl)

theorem iterate (h : ViewerHost K ρ) : Acts h (h.iterate Station.rebuildMap).2 := by
  refine (spinOnce h).trans ?_
  unfold Host.iterate rest
  dsimp only
  split
  · exact refl _
  · exact quiet rfl rfl rfl

theorem loop (rounds : Nat) (hs : Acts h h') :
    Acts h (h'.loop Station.rebuildMap rounds).2.1 := by
  induction rounds generalizing h' with
  | zero => exact hs
  | succ rounds ih =>
    cases hflag : h'.scheduler.stopRequested with
    | true =>
      rw [loop_of_stopped _ _ hflag]
      exact hs
    | false =>
      rw [loop_of_unstopped _ _ hflag]
      exact ih (hs.trans (iterate h'))

theorem run (rounds : Nat) (h : ViewerHost K ρ) :
    Acts h (h.run Station.rebuildMap rounds).2.1 := by
  have hbegun : Acts h { h with onLoopThread := true } := quiet rfl rfl rfl
  exact (hbegun.loop rounds).trans
    ⟨⟨fun hdead => Bool.and_eq_false_iff.mpr (.inl hdead), id⟩, .refl _⟩

/-! ### Deliveries -/

theorem updateSubmaps (submaps : List (Submap K)) (h : ViewerHost K ρ) :
    Acts h (h.updateSubmaps submaps).1 := by
  unfold ViewerHost.updateSubmaps
  split
  next => exact refl h
  next latest _ =>
    have hcorrected (f : Stats → Stats) : Acts h
        { h with surroundings := (h.surroundings.count f).correctAnchor latest } :=
      ⟨.refl _, ((Station.Tells.refl h.surroundings).count f).correctAnchor latest⟩
    exact (hcorrected _).submit _

end Acts

end Host

end LiveMap
