import LiveMap.Proofs.Session.Lifecycle

/-!
# Closed viewers

A viewer that has left the slots and whose thread has ended is out of reach: whatever is delivered,
it stays as it is, until it is registered again. A close brings this about, unless the viewer had
been closed before: then it does nothing, and a viewer that was registered in the meantime stays in
the slots.

## Main definitions

* `SessionMove.IsDelivery`: the pipeline or a scheduler thread works.
* `Session.account?`: what a viewer knows, counts and has told.
* `Session.Detached`: a viewer that is out of reach.

## Main statements

* `Session.Detached.play`: a viewer stays out of reach until it is registered.
* `Session.Detached.account?_act`: no delivery changes a viewer that is out of reach.
* `Session.close_detaches`: what a close brings about.
-/

namespace LiveMap

variable {K ρ : Type}

/-- The pipeline reaches the registered viewers, or a scheduler thread goes through its loop. -/
def SessionMove.IsDelivery : SessionMove K ρ → Prop
  | .dispatchFrame _ | .dispatchSubmaps _ | .run _ _ => True
  | _ => False

/-- What a viewer knows, counts and has told. -/
structure Account (K : Type) where
  trajectory : Trajectory K
  stats : Stats
  told : List (Address × Message K)
  published : Output → Nat

/-- At most notes were taken at a station. -/
structure Station.OnlyNotes (s s' : Station K ρ) : Prop where
  viewer : s'.viewer = s.viewer
  sent : s'.bus.sent = s.bus.sent
  channels : s'.bus.channels = s.bus.channels

namespace Session

def account? (id : Nat) (s : Session K ρ) : Option (Account K) :=
  (s.members[id]?).map fun m =>
    { trajectory := m.viewer.trajectory
      stats := m.viewer.stats
      told := s.bus.sent.filter fun p => p.1.1 = id
      published := fun o => (s.bus.channels (id, o)).published }

variable {s s' : Session K ρ} {id : Nat}

theorem account?_congr
    (hviewer : (s'.members[id]?).map Member.viewer = (s.members[id]?).map Member.viewer)
    (hsent : s'.bus.sent.filter (fun p => p.1.1 = id) = s.bus.sent.filter fun p => p.1.1 = id)
    (hpublished : ∀ o,
      (s'.bus.channels (id, o)).published = (s.bus.channels (id, o)).published) :
    s'.account? id = s.account? id := by
  have haccount (s : Session K ρ) : s.account? id =
      ((s.members[id]?).map Member.viewer).map fun v => ⟨v.trajectory, v.stats,
        s.bus.sent.filter fun p => p.1.1 = id, fun o => (s.bus.channels (id, o)).published⟩ := by
    rw [account?, Option.map_map]
    rfl
  simp only [haccount, hviewer, hsent, hpublished]

/-! ## Other viewers -/

/-- What one viewer does leaves the accounts of all others alone. -/
theorem account?_onHost_of_ne {α : Type} {j : Nat} (hne : j ≠ id) {absent : α}
    {f : ViewerHost K ρ → ViewerHost K ρ × α} (hf : ∀ h, Host.Acts h (f h).1)
    (s : Session K ρ) : (s.onHost id absent f).1.account? j = s.account? j := by
  unfold onHost
  split
  next => rfl
  next h hhost =>
    obtain ⟨m, -, -, hstation, -⟩ := exists_of_host? hhost
    obtain ⟨-, ⟨told, htold, hown⟩, hpublished⟩ := (hf h).station
    rw [hstation] at htold hown hpublished
    refine account?_congr (by simp [putHost, Ne.symm hne]) ?_ fun o => hpublished (j, o) hne
    have hothers : told.filter (fun p => p.1.1 = j) = [] := by
      rw [List.filter_eq_nil_iff]
      intro p hp
      simpa [hown p hp] using hne.symm
    rw [← List.append_nil (s.bus.sent.filter _), ← hothers, ← List.filter_append]
    exact congrArg _ htold

/-- A viewer that at most takes notes leaves all accounts alone. -/
theorem account?_onHost_of_noted {α : Type} {j : Nat} {absent : α}
    {f : ViewerHost K ρ → ViewerHost K ρ × α}
    (hf : ∀ h, s.host? j = some h → h.surroundings.OnlyNotes (f h).1.surroundings) :
    (s.onHost j absent f).1.account? id = s.account? id := by
  unfold onHost
  split
  next => rfl
  next h hhost =>
    obtain ⟨m, hm, -, hstation, -⟩ := exists_of_host? hhost
    obtain ⟨hviewer, hsent, hchannels⟩ := hf h hhost
    rw [hstation] at hviewer hsent hchannels
    refine account?_congr ?_ (congrArg _ hsent) fun o =>
      congrArg (fun c => (c (id, o)).published) hchannels
    by_cases hj : j = id
    · subst hj
      simp [putHost, hm, hviewer]
    · simp [putHost, hj]

/-! ## Out of reach -/

/-- The thread of a viewer was told to end, and is not alive. -/
def Ended (id : Nat) (s : Session K ρ) : Prop :=
  ∃ m, s.members[id]? = some m ∧ m.scheduler.alive = false ∧ m.scheduler.stopRequested = true

/-- The viewer stands in no slot, and its thread has ended. -/
structure Detached (id : Nat) (s : Session K ρ) : Prop where
  frames : id ∉ s.frameSlot.entries
  submaps : id ∉ s.submapSlot.entries
  unregistered : s.isRegistered id = false
  thread : s.Ended id

/-- A change to a viewer that leaves its scheduler alone. -/
theorem Ended.modify (h : s.Ended id) {j : Nat} {f : Member K → Member K}
    (hmembers : s'.members = s.members.modify j f)
    (hf : ∀ m, (f m).scheduler = m.scheduler) : s'.Ended id := by
  obtain ⟨m, hm, hended⟩ := h
  refine ⟨_, member_of_modify hmembers hm, ?_⟩
  split
  · rwa [hf]
  · exact hended

namespace Detached

theorem follows (h : Detached id s) (hf : Follows s s') : Detached id s' := by
  obtain ⟨m, hm, hdead, htold⟩ := h.thread
  obtain ⟨m', hm', hages⟩ := hf.member id m hm
  exact ⟨hf.frameSlot ▸ h.frames, hf.submapSlot ▸ h.submaps,
    (hf.registered id).trans h.unregistered, m', hm', hages.dead hdead, hages.told htold⟩

theorem unregister (h : Detached id s) (j : Nat) : Detached id (s.unregister j) := by
  cases hj : s.isRegistered j with
  | false => rwa [unregister_of_unregistered hj]
  | true =>
    obtain ⟨hframes, hsubmaps, hmembers⟩ := unregister_of_registered hj
    have hregistered := isRegistered_modify hmembers (fun _ => rfl) (lt_of_isRegistered hj) id
    refine ⟨fun hid => h.frames (List.mem_of_mem_erase (hframes ▸ hid)),
      fun hid => h.submaps (List.mem_of_mem_erase (hsubmaps ▸ hid)), ?_,
      h.thread.modify hmembers fun _ => rfl⟩
    rw [hregistered, h.unregistered, ite_self]

theorem register (h : Detached id s) {j : Nat} (hne : j ≠ id) (hlength : j < s.members.length) :
    Detached id (s.register j) := by
  cases hj : s.isRegistered j with
  | true => rwa [register_of_registered hj]
  | false =>
    obtain ⟨hframes, hsubmaps, hmembers⟩ := register_of_unregistered hj
    have hregistered := isRegistered_modify hmembers (fun _ => rfl) hlength id
    refine ⟨?_, ?_, ?_, h.thread.modify hmembers fun _ => rfl⟩
    · rw [hframes]
      simp [h.frames, Ne.symm hne]
    · rw [hsubmaps]
      simp [h.submaps, Ne.symm hne]
    · rw [hregistered, if_neg hne, h.unregistered]

variable [Scalar K]

theorem act (h : Detached id s) {move : SessionMove K ρ} (hmove : move ≠ .register id) :
    Detached id (s.act move) := by
  rcases act_cases s move with
    ⟨-, hf | ⟨j, hf⟩⟩ | ⟨j, s', hregisters, -, hf, hlength, hregister⟩
  · exact h.follows hf
  · exact (h.unregister j).follows hf
  · have hne : j ≠ id := by
      rintro rfl
      rcases registers?_eq_some hregisters with hasked | hnew
      · exact hmove hasked
      · -- The number of a viewer that is opened was not given before.
        obtain ⟨m, hm, -⟩ := h.thread
        exact absurd (List.getElem?_eq_some_iff.mp hm).1 (by omega)
    rw [hregister]
    exact (h.follows hf).register hne hlength

/-- A viewer stays out of reach until it is registered. -/
theorem play (h : Detached id s) {moves : List (SessionMove K ρ)}
    (hmoves : .register id ∉ moves) : Detached id (s.play moves) := by
  induction moves generalizing s with
  | nil => exact h
  | cons move rest ih =>
    have hmove : move ≠ .register id := fun heq => hmoves (heq ▸ List.mem_cons_self ..)
    exact ih (h.act hmove) fun hrest => hmoves (List.mem_cons_of_mem _ hrest)

/-- No delivery changes a viewer that is out of reach. -/
theorem account?_act (h : Detached id s) {move : SessionMove K ρ} (hmove : move.IsDelivery) :
    (s.act move).account? id = s.account? id := by
  cases move with
  | dispatchFrame f =>
    refine invokeAll_preserves
      (P := fun w : Session K ρ => w.account? id = s.account? id) ?_ rfl
    intro j hj w hw
    have hne : id ≠ j := fun heq => h.frames (heq ▸ hj)
    exact (account?_onHost_of_ne hne (fun h => ⟨.refl _, .newFrame f h.surroundings⟩) w).trans hw
  | dispatchSubmaps submaps =>
    refine invokeAll_preserves
      (P := fun w : Session K ρ => w.account? id = s.account? id) ?_ rfl
    intro j hj w hw
    have hne : id ≠ j := fun heq => h.submaps (heq ▸ hj)
    exact (account?_onHost_of_ne hne (Host.Acts.updateSubmaps submaps) w).trans hw
  | run rounds j =>
    by_cases hne : id = j
    · subst hne
      -- Its own loop looks at the stop flag before anything else.
      obtain ⟨m, hm, -, htold⟩ := h.thread
      refine account?_onHost_of_noted fun h hhost => ?_
      obtain ⟨m', hm', hscheduler, -, -⟩ := exists_of_host? hhost
      obtain rfl : m' = m := Option.some.inj (hm'.symm.trans hm)
      dsimp only
      rw [Host.surroundings_run_of_stopped _ _ (hscheduler ▸ htold)]
      exact ⟨rfl, rfl, rfl⟩
    · exact account?_onHost_of_ne (f := fun h => ((h.run Station.rebuildMap rounds).2.1, ())) hne
        (Host.Acts.run rounds) s
  | _ => exact hmove.elim

end Detached

/-! ## Closing -/

/-- A viewer whose scheduler could be stopped has an ended thread. -/
theorem ended_of_stop (hid : id < s.members.length) {timeout : Option K}
    (hstop : s.stop id timeout = (s', none)) : s'.Ended id := by
  obtain ⟨h, hhost⟩ : ∃ h, s.host? id = some h :=
    ⟨_, by rw [host?, List.getElem?_eq_getElem hid]; rfl⟩
  obtain ⟨m, hm, -, -, hthread⟩ := exists_of_host? hhost
  rw [stop, onHost_of_host? hhost] at hstop
  obtain ⟨rfl, hreturned⟩ := Prod.mk.inj hstop
  have hstopped : h.stop timeout = ((h.stop timeout).1, none) := Prod.ext rfl hreturned
  have hended := Host.ended_of_stop hthread hstopped
  exact ⟨⟨(h.stop timeout).1.surroundings.viewer, (h.stop timeout).1.scheduler, m.registered,
    m.closed⟩, by simp [putHost, hm], hended⟩

/-- A close that returns takes a viewer that was not closed before out of reach. -/
theorem detached_of_close (h : InStep s) (hid : id < s.members.length)
    (hclosed : s.isClosed id = false) (hclose : s.close id = (s', none)) : Detached id s' := by
  obtain ⟨hclosed', -⟩ | ⟨-, hleft⟩ := close_cases id s
  · rw [hclosed] at hclosed'
    cases hclosed'
  rw [hclose] at hleft
  have hunregistered := isRegistered_unregister id s
  have hslots := h.unregister id
  have hthread : s'.Ended id := by
    rw [close, hclosed, if_neg Bool.false_ne_true] at hclose
    split at hclose
    next stopped hstop =>
      obtain ⟨rfl, -⟩ := Prod.mk.inj hclose
      exact (ended_of_stop (length_unregister id s ▸ hid) hstop).modify rfl fun _ => rfl
    next => cases hclose
  refine ⟨?_, ?_, (hleft.registered id).trans hunregistered, hthread⟩
  · rw [hleft.frameSlot, hslots.frames.mem, hunregistered]
    exact Bool.false_ne_true
  · rw [hleft.submapSlot, hslots.submaps.mem, hunregistered]
    exact Bool.false_ne_true

variable [Scalar K]

/-- Nobody has opened a viewer yet. -/
structure IsFresh (s : Session K ρ) : Prop where
  members : s.members = []
  frames : s.frameSlot.entries = []
  submaps : s.submapSlot.entries = []

omit [Scalar K] in
theorem IsFresh.inStep (h : s.IsFresh) : InStep s := by
  have hnobody : ∀ id, s.isRegistered id = false := by
    intro id
    rw [isRegistered, h.members]
    rfl
  have hlists : s.Lists [] := ⟨List.nodup_nil, fun id => by simp [hnobody]⟩
  exact ⟨h.frames ▸ hlists, h.submaps ▸ hlists⟩

/-- After any history of any number of viewers, let a close return on a thread other than the
viewer's own. A viewer that had not been closed before, or was out of reach already, is out of reach
then and stays so until it is registered again, and no delivery changes what it knows, counts and
has told. To a viewer that had been closed before, a close does nothing at all. -/
theorem close_detaches {start : Session K ρ} (hstart : start.IsFresh)
    (before : List (SessionMove K ρ)) {id : Nat} (hid : id < (start.play before).members.length)
    {closed : Session K ρ} (hclose : (start.play before).close id = (closed, none)) :
    ((start.play before).isClosed id = false ∨ (start.play before).Detached id →
      ∀ later : List (SessionMove K ρ), .register id ∉ later →
        (closed.play later).Detached id ∧ ∀ move : SessionMove K ρ, move.IsDelivery →
          ((closed.play later).act move).account? id = (closed.play later).account? id) ∧
    ((start.play before).isClosed id = true → closed = start.play before) := by
  have hstep : (start.play before).InStep := hstart.inStep.play before
  refine ⟨fun hfirst later hlater => ?_, fun hagain => ?_⟩
  · have hdetached : closed.Detached id := by
      rcases hfirst with hopen | hdetached
      · exact detached_of_close hstep hid hopen hclose
      · have hclosed : ((start.play before).act (.close id)).Detached id :=
          hdetached.act (by simp)
        rwa [act, hclose] at hclosed
    have hlast := hdetached.play hlater
    exact ⟨hlast, fun move hmove => hlast.account?_act hmove⟩
  · rw [close, hagain, if_pos rfl] at hclose
    exact (Prod.mk.inj hclose).1.symm

/-! ### Histories of one viewer -/

/-- A session without viewers, on a bus that nobody listens to. -/
def empty : Session Float Empty :=
  { bus := { channels := fun _ => { topic := "" }, script := nofun }, now := 0, wallClock := 0 }

theorem isFresh_empty : empty.IsFresh := ⟨rfl, rfl, rfl⟩

/-- A close that failed because a task kept the thread from ending. -/
def blockedClose : List (SessionMove Float Empty) :=
  [.launch (.ofConfig .standard) true, .block true, .close 0, .block false]

/-- A viewer is out of reach when a failed close was repeated, and a second viewer that is opened
after that is not. -/
theorem detached_of_blockedClose : ∃ closed,
    (empty.play blockedClose).close 0 = (closed, none) ∧
      (closed.play [.launch (.ofConfig .standard) true]).frameSlot.entries = [1] ∧
      (closed.play [.launch (.ofConfig .standard) true]).Detached 0 := by
  refine ⟨_, rfl, rfl, ?_⟩
  have hopened : 0 < (empty.play blockedClose).members.length := by decide
  obtain ⟨hdetaches, -⟩ := close_detaches isFresh_empty blockedClose hopened rfl
  exact (hdetaches (.inl rfl) [.launch (.ofConfig .standard) true] (by simp)).1

/-- A viewer that is registered after a close stays in both slots when it is closed again, and one
that a task of its own closed keeps its thread. -/
theorem close_again : (∃ closed,
    (empty.play [.launch (.ofConfig .standard) true, .close 0, .register 0]).close 0 =
      (closed, none) ∧ 0 ∈ closed.frameSlot.entries ∧ 0 ∈ closed.submapSlot.entries) ∧
    ∃ closed, (empty.play [.launch (.ofConfig .standard) false, .closeFromTask 0]).close 0 =
      (closed, none) ∧ (closed.members.map fun m => m.scheduler.alive) = [true] :=
  ⟨⟨_, rfl, List.mem_singleton_self 0, List.mem_singleton_self 0⟩, _, rfl, rfl⟩

end Session

end LiveMap
