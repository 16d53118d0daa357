import LiveMap.Proofs.Session.OwnOutputs

/-!
# The life of viewers in a session

Viewers are opened, registered, closed and registered again in any order. In between the pipeline
reaches those that are registered, and their threads work. Whatever happens, the slots hold each
registered viewer once.

## Main definitions

* `SessionMove`, `Session.act`, `Session.play`: what can happen, one after the other.
* `Session.registers?`: the viewer that a move registers.
* `Session.Follows`: nobody was registered or left.
* `Session.InStep`: the slots hold the registered viewers.

## Main statements

* `Session.act_cases`: what a move does to the slots.
* `Session.InStep.play`: the slots are in step in every run.
-/

namespace LiveMap

variable {K ρ : Type}

/-- What can happen to a session. -/
inductive SessionMove (K ρ : Type) where
  | launch (settings : Settings K) (registers : Bool)
  | register (id : Nat)
  | unregister (id : Nat)
  | close (id : Nat)
  /-- A task on the scheduler thread of a viewer closes it. -/
  | closeFromTask (id : Nat)
  | stop (timeout : Option K) (id : Nat)
  | dispatchFrame (f : EstimationFrame K)
  | dispatchSubmaps (submaps : List (Submap K))
  /-- The scheduler thread of a viewer goes through its loop, a number of times at most. -/
  | run (rounds : Nat) (id : Nat)
  | newFrame (f : EstimationFrame K) (id : Nat)
  | updateSubmaps (submaps : List (Submap K)) (id : Nat)
  | submit (task : Task K (Rebuild K)) (id : Nat)
  /-- Another thread performs the tasks that wait for a viewer. -/
  | spinOnce (id : Nat)
  | block (blocked : Bool)
  | tick (wallClock : K)
  | subscribe (a : Address) (l : Listener ρ)
  | unsubscribe (a : Address) (handle : Nat)

namespace Session

/-- A close by a task on the scheduler thread of the viewer, which does not wait for itself. -/
def closeFromTask (id : Nat) (s : Session K ρ) : Session K ρ :=
  if s.isClosed id then s
  else
    let told := (s.unregister id).onHost id none fun h =>
      Host.stop none { h with onLoopThread := true }
    told.1.modifyMember id fun m => { m with closed := true }

/-! ## What registers nobody -/

/-- Nobody was registered or left, and schedulers only aged. -/
structure Follows (s s' : Session K ρ) : Prop where
  frameSlot : s'.frameSlot = s.frameSlot
  submapSlot : s'.submapSlot = s.submapSlot
  registered : ∀ id, s'.isRegistered id = s.isRegistered id
  member : ∀ (id : Nat) (m : Member K), s.members[id]? = some m →
    ∃ m' : Member K, s'.members[id]? = some m' ∧ m.scheduler.Ages m'.scheduler

variable {s s' s'' : Session K ρ}

namespace Follows

/-- Viewers and slots are as they were. -/
theorem quiet (hframes : s'.frameSlot = s.frameSlot) (hsubmaps : s'.submapSlot = s.submapSlot)
    (hmembers : s'.members = s.members) : Follows s s' where
  frameSlot := hframes
  submapSlot := hsubmaps
  registered id := by rw [isRegistered, isRegistered, hmembers]
  member id m hm := ⟨m, by rw [hmembers, hm], .refl _⟩

theorem refl (s : Session K ρ) : Follows s s := quiet rfl rfl rfl

theorem trans (h : Follows s s') (h' : Follows s' s'') : Follows s s'' where
  frameSlot := h'.frameSlot.trans h.frameSlot
  submapSlot := h'.submapSlot.trans h.submapSlot
  registered id := (h'.registered id).trans (h.registered id)
  member id m hm := by
    obtain ⟨m', hm', hages⟩ := h.member id m hm
    obtain ⟨m'', hm'', hages'⟩ := h'.member id m' hm'
    exact ⟨m'', hm'', hages.trans hages'⟩

end Follows

/-- A viewer after one of all viewers was changed. -/
theorem member_of_modify {id : Nat} {f : Member K → Member K}
    (hmembers : s'.members = s.members.modify id f) {j : Nat} {m : Member K}
    (hm : s.members[j]? = some m) : s'.members[j]? = some (if id = j then f m else m) := by
  rw [hmembers, List.getElem?_modify, hm]
  split <;> rfl

namespace Follows

/-- One viewer was changed, and its registration was not. -/
theorem modify {id : Nat} {f : Member K → Member K} (hframes : s'.frameSlot = s.frameSlot)
    (hsubmaps : s'.submapSlot = s.submapSlot) (hmembers : s'.members = s.members.modify id f)
    (hf : ∀ m : Member K, s.members[id]? = some m →
      (f m).registered = m.registered ∧ m.scheduler.Ages (f m).scheduler) : Follows s s' := by
  have hkept : ∀ (j : Nat) (m : Member K), s.members[j]? = some m →
      (if id = j then f m else m).registered = m.registered ∧
        m.scheduler.Ages (if id = j then f m else m).scheduler := by
    intro j m hm
    split
    next hj => exact hf m (hj ▸ hm)
    next => exact ⟨rfl, .refl _⟩
  refine ⟨hframes, hsubmaps, fun j => ?_, fun j m hm => ?_⟩
  · cases hm : s.members[j]? with
    | none => simp [isRegistered, hmembers, List.getElem?_modify, hm]
    | some m => simp [isRegistered, hm, member_of_modify hmembers hm, (hkept j m hm).1]
  · exact ⟨_, member_of_modify hmembers hm, (hkept j m hm).2⟩

theorem modifyMember {id : Nat} {f : Member K → Member K} (h : Follows s s')
    (hf : ∀ m, (f m).registered = m.registered ∧ (f m).scheduler = m.scheduler) :
    Follows s (s'.modifyMember id f) :=
  h.trans (modify (f := f) rfl rfl rfl fun m _ =>
    ⟨(hf m).1, by rw [(hf m).2]; exact .refl _⟩)

theorem onHost {α : Type} (id : Nat) (absent : α) {f : ViewerHost K ρ → ViewerHost K ρ × α}
    (hf : ∀ h, Host.Acts h (f h).1) (s : Session K ρ) :
    Follows s (s.onHost id absent f).1 := by
  unfold Session.onHost
  split
  next => exact refl s
  next h hhost =>
    obtain ⟨m', hm', hscheduler, -, -⟩ := exists_of_host? hhost
    refine modify rfl rfl rfl fun m hm => ⟨rfl, ?_⟩
    obtain rfl : m' = m := Option.some.inj (hm'.symm.trans hm)
    exact hscheduler ▸ (hf h).scheduler

theorem addViewer [Scalar K] (settings : Settings K) (s : Session K ρ) :
    Follows s (s.addViewer settings) := by
  have hplace : ∀ (id : Nat) (m : Member K), s.members[id]? = some m →
      (s.addViewer settings).members[id]? = some m := by
    intro id m hm
    have hid := (List.getElem?_eq_some_iff.mp hm).1
    exact (List.getElem?_append_left hid).trans hm
  refine ⟨rfl, rfl, fun id => ?_, fun id m hm => ⟨m, hplace id m hm, .refl _⟩⟩
  cases hm : s.members[id]? with
  | none =>
    have hbehind := List.getElem?_eq_none_iff.mp hm
    unfold isRegistered
    rw [hm]
    refine (congrArg (fun m : Option (Member K) => (m.map Member.registered).getD false)
      (List.getElem?_append_right hbehind)).trans ?_
    cases id - s.members.length <;> rfl
  | some m => rw [isRegistered, isRegistered, hplace id m hm, hm]

end Follows

/-! ## Registration -/

theorem isRegistered_modify {id : Nat} {f : Member K → Member K} {registered : Bool}
    (hmembers : s'.members = s.members.modify id f) (hf : ∀ m, (f m).registered = registered)
    (hid : id < s.members.length) (j : Nat) :
    s'.isRegistered j = if id = j then registered else s.isRegistered j := by
  by_cases hj : id = j
  · subst hj
    have hm := List.getElem?_eq_getElem hid
    simp [isRegistered, member_of_modify hmembers hm, hf]
  · cases hm : s.members[j]? with
    | none => simp [isRegistered, hmembers, hm, hj]
    | some m => simp [isRegistered, hm, member_of_modify hmembers hm, hj]

theorem lt_of_isRegistered {id : Nat} (h : s.isRegistered id = true) : id < s.members.length := by
  refine Nat.lt_of_not_le fun hid => ?_
  rw [isRegistered, List.getElem?_eq_none hid] at h
  cases h

theorem leaveFrames_eq (id : Nat) (s : Session K ρ) :
    (s.leaveFrames id).frameSlot.entries = s.frameSlot.entries.erase id ∧
      (s.leaveFrames id).submapSlot = s.submapSlot ∧
      (s.leaveFrames id).members = s.members := by
  unfold leaveFrames
  split
  next => exact ⟨rfl, rfl, rfl⟩
  next hid => exact ⟨(List.erase_of_not_mem hid).symm, rfl, rfl⟩

theorem leaveSubmaps_eq (id : Nat) (s : Session K ρ) :
    (s.leaveSubmaps id).frameSlot = s.frameSlot ∧
      (s.leaveSubmaps id).submapSlot.entries = s.submapSlot.entries.erase id ∧
      (s.leaveSubmaps id).members = s.members := by
  unfold leaveSubmaps
  split
  next => exact ⟨rfl, rfl, rfl⟩
  next hid => exact ⟨rfl, (List.erase_of_not_mem hid).symm, rfl⟩

theorem unregister_of_unregistered {id : Nat} (h : s.isRegistered id = false) :
    s.unregister id = s := by
  rw [unregister, h, if_neg Bool.false_ne_true]

theorem unregister_of_registered {id : Nat} (h : s.isRegistered id = true) :
    (s.unregister id).frameSlot.entries = s.frameSlot.entries.erase id ∧
      (s.unregister id).submapSlot.entries = s.submapSlot.entries.erase id ∧
      (s.unregister id).members = s.members.modify id fun m => { m with registered := false } := by
  obtain ⟨hframes, hsubmaps, hmembers⟩ := leaveFrames_eq id s
  obtain ⟨hframes', hsubmaps', hmembers'⟩ := leaveSubmaps_eq id (s.leaveFrames id)
  rw [unregister, if_pos h]
  refine ⟨?_, ?_, ?_⟩
  · rw [← hframes, ← hframes']
    rfl
  · rw [← hsubmaps, ← hsubmaps']
    rfl
  · rw [← hmembers, ← hmembers']
    rfl

theorem isRegistered_unregister (id : Nat) (s : Session K ρ) :
    (s.unregister id).isRegistered id = false := by
  cases hid : s.isRegistered id with
  | false => rwa [unregister_of_unregistered hid]
  | true =>
    obtain ⟨-, -, hmembers⟩ := unregister_of_registered hid
    rw [isRegistered_modify hmembers (fun _ => rfl) (lt_of_isRegistered hid) id, if_pos rfl]

theorem length_unregister (id : Nat) (s : Session K ρ) :
    (s.unregister id).members.length = s.members.length := by
  cases hid : s.isRegistered id with
  | false => rw [unregister_of_unregistered hid]
  | true =>
    obtain ⟨-, -, hmembers⟩ := unregister_of_registered hid
    rw [hmembers, List.length_modify]

theorem register_of_unregistered {id : Nat} (h : s.isRegistered id = false) :
    (s.register id).frameSlot.entries = s.frameSlot.entries ++ [id] ∧
      (s.register id).submapSlot.entries = s.submapSlot.entries ++ [id] ∧
      (s.register id).members = s.members.modify id fun m => { m with registered := true } := by
  rw [register, h, if_neg Bool.false_ne_true]
  exact ⟨rfl, rfl, rfl⟩

theorem register_of_registered {id : Nat} (h : s.isRegistered id = true) : s.register id = s := by
  rw [register, if_pos h]

/-! ## Slots in step -/

/-- Entries of a slot are the registered viewers, each of them once. -/
structure Lists (s : Session K ρ) (entries : List Nat) : Prop where
  nodup : entries.Nodup
  mem : ∀ id, id ∈ entries ↔ s.isRegistered id = true

theorem Lists.erase {entries : List Nat} (h : s.Lists entries) {id : Nat}
    (hregistered : ∀ j, s'.isRegistered j = if id = j then false else s.isRegistered j) :
    s'.Lists (entries.erase id) := by
  refine ⟨h.nodup.erase id, fun j => ?_⟩
  rw [h.nodup.mem_erase_iff, hregistered, h.mem]
  by_cases hj : id = j
  · simp [hj]
  · simp [hj, Ne.symm hj]

theorem Lists.add {entries : List Nat} (h : s.Lists entries) {id : Nat}
    (hid : s.isRegistered id = false)
    (hregistered : ∀ j, s'.isRegistered j = if id = j then true else s.isRegistered j) :
    s'.Lists (entries ++ [id]) := by
  have hnew : id ∉ entries := by simp [h.mem, hid]
  refine ⟨List.nodup_append.mpr ⟨h.nodup, by simp, ?_⟩, fun j => ?_⟩
  · rintro j hj _ hid' rfl
    exact hnew (List.mem_singleton.mp hid' ▸ hj)
  · rw [hregistered]
    by_cases hj : id = j
    · simp [hj]
    · simp [hj, Ne.symm hj, h.mem]

/-- Both slots hold the registered viewers. -/
structure InStep (s : Session K ρ) : Prop where
  frames : s.Lists s.frameSlot.entries
  submaps : s.Lists s.submapSlot.entries

namespace InStep

theorem follows (h : InStep s) (hf : Follows s s') : InStep s' := by
  have hlists : ∀ entries, s.Lists entries → s'.Lists entries := fun _ hl =>
    ⟨hl.nodup, fun id => by rw [hf.registered, hl.mem]⟩
  exact ⟨hf.frameSlot ▸ hlists _ h.frames, hf.submapSlot ▸ hlists _ h.submaps⟩

theorem unregister (h : InStep s) (id : Nat) : InStep (s.unregister id) := by
  cases hid : s.isRegistered id with
  | false => rwa [unregister_of_unregistered hid]
  | true =>
    obtain ⟨hframes, hsubmaps, hmembers⟩ := unregister_of_registered hid
    have hregistered := isRegistered_modify hmembers (fun _ => rfl) (lt_of_isRegistered hid)
    exact ⟨hframes ▸ h.frames.erase hregistered, hsubmaps ▸ h.submaps.erase hregistered⟩

theorem register (h : InStep s) {id : Nat} (hlength : id < s.members.length) :
    InStep (s.register id) := by
  cases hid : s.isRegistered id with
  | true => rwa [register_of_registered hid]
  | false =>
    obtain ⟨hframes, hsubmaps, hmembers⟩ := register_of_unregistered hid
    have hregistered := isRegistered_modify hmembers (fun _ => rfl) hlength
    exact ⟨hframes ▸ h.frames.add hid hregistered, hsubmaps ▸ h.submaps.add hid hregistered⟩

end InStep

variable [Scalar K]

/-- One move. A viewer that is not there cannot be registered. -/
def act (s : Session K ρ) : SessionMove K ρ → Session K ρ
  | .launch settings registers =>
    if registers then (s.addViewer settings).register s.members.length else s.addViewer settings
  | .register id => if id < s.members.length then s.register id else s
  | .unregister id => s.unregister id
  | .close id => (s.close id).1
  | .closeFromTask id => s.closeFromTask id
  | .stop timeout id => (s.stop id timeout).1
  | .dispatchFrame f => (s.dispatchFrame f).1
  | .dispatchSubmaps submaps => (s.dispatchSubmaps submaps).1
  | .run rounds id => (s.onHost id () fun h => ((h.run Station.rebuildMap rounds).2.1, ())).1
  | .newFrame f id => (s.newFrame f id).1
  | .updateSubmaps submaps id => (s.updateSubmaps submaps id).1
  | .submit task id => (s.onHost id () fun h => (h.submit task, ())).1
  | .spinOnce id => (s.onHost id () fun h => (h.spinOnce Station.rebuildMap, ())).1
  | .block blocked => { s with blocked }
  | .tick wallClock => { s with wallClock }
  | .subscribe a l => { s with bus := s.bus.subscribe a l }
  | .unsubscribe a handle => { s with bus := s.bus.unsubscribe a handle }

/-- Moves one after the other. -/
def play (s : Session K ρ) (moves : List (SessionMove K ρ)) : Session K ρ := moves.foldl act s

omit [Scalar K] in
/-- The viewer that a move registers: a new one, or one that asks for it and is not registered. -/
def registers? (s : Session K ρ) : SessionMove K ρ → Option Nat
  | .launch _ registers => if registers then some s.members.length else none
  | .register id => if id < s.members.length ∧ s.isRegistered id = false then some id else none
  | _ => none

omit [Scalar K] in
theorem registers?_eq_some {move : SessionMove K ρ} {id : Nat} (h : s.registers? move = some id) :
    move = .register id ∨ id = s.members.length := by
  cases move with
  | launch settings registers => grind [registers?]
  | register id => grind [registers?]
  | _ => cases h

/-! ## What a move does to the slots -/

omit [Scalar K] in
theorem follows_stop (id : Nat) (timeout : Option K) (s : Session K ρ) :
    Follows s (s.stop id timeout).1 :=
  .onHost id none (fun h => (Host.Acts.refl h).stop timeout) s

omit [Scalar K] in
/-- A close does nothing to a viewer that was closed before, and takes any other out of the slots.
-/
theorem close_cases (id : Nat) (s : Session K ρ) :
    s.isClosed id = true ∧ s.close id = (s, none) ∨
      s.isClosed id = false ∧ Follows (s.unregister id) (s.close id).1 := by
  unfold close
  cases hclosed : s.isClosed id with
  | true => exact .inl ⟨rfl, rfl⟩
  | false =>
    have hstopped := follows_stop id none (s.unregister id)
    refine .inr ⟨rfl, ?_⟩
    rw [if_neg Bool.false_ne_true]
    split
    next heq =>
      rw [heq] at hstopped
      exact hstopped.modifyMember fun _ => ⟨rfl, rfl⟩
    next heq =>
      rw [heq] at hstopped
      exact hstopped

omit [Scalar K] in
theorem closeFromTask_cases (id : Nat) (s : Session K ρ) :
    s.closeFromTask id = s ∨ Follows (s.unregister id) (s.closeFromTask id) := by
  unfold closeFromTask
  split
  · exact .inl rfl
  · refine .inr ((Follows.onHost id none (fun h => ?_) (s.unregister id)).modifyMember
      fun _ => ⟨rfl, rfl⟩)
    have hthread : Host.Acts h { h with onLoopThread := true } := .quiet rfl rfl rfl
    exact hthread.stop none

theorem follows_newFrame (f : EstimationFrame K) (id : Nat) (s : Session K ρ) :
    Follows s (s.newFrame f id).1 :=
  .onHost id none (fun h => ⟨.refl _, .newFrame f h.surroundings⟩) s

theorem follows_updateSubmaps (submaps : List (Submap K)) (id : Nat) (s : Session K ρ) :
    Follows s (s.updateSubmaps submaps id).1 :=
  .onHost id none (Host.Acts.updateSubmaps submaps) s

theorem follows_dispatchFrame (f : EstimationFrame K) (s : Session K ρ) :
    Follows s (s.dispatchFrame f).1 :=
  invokeAll_preserves (P := Follows s)
    (fun id _ w hw => hw.trans (follows_newFrame f id w)) (.refl s)

theorem follows_dispatchSubmaps (submaps : List (Submap K)) (s : Session K ρ) :
    Follows s (s.dispatchSubmaps submaps).1 :=
  invokeAll_preserves (P := Follows s)
    (fun id _ w hw => hw.trans (follows_updateSubmaps submaps id w)) (.refl s)

/-- A move registers nobody, or takes one viewer out of the slots, or puts one in that is new or
asked for it. -/
theorem act_cases (s : Session K ρ) (move : SessionMove K ρ) :
    s.registers? move = none ∧
        (Follows s (s.act move) ∨ ∃ id, Follows (s.unregister id) (s.act move)) ∨
      ∃ id s', s.registers? move = some id ∧ s.isRegistered id = false ∧ Follows s s' ∧
        id < s'.members.length ∧ s.act move = s'.register id := by
  cases move with
  | launch settings registers =>
    have hlaunched : Follows s (s.addViewer settings) := .addViewer settings s
    cases registers with
    | false => exact .inl ⟨rfl, .inl hlaunched⟩
    | true =>
      have hnew : s.isRegistered s.members.length = false := by simp [isRegistered]
      refine .inr ⟨s.members.length, _, rfl, hnew, hlaunched, ?_, rfl⟩
      have hlength : (s.addViewer settings).members.length = s.members.length + 1 :=
        List.length_append
      omega
  | register id =>
    rw [registers?, act]
    by_cases hid : id < s.members.length
    · rw [if_pos hid]
      cases hregistered : s.isRegistered id with
      | false => exact .inr ⟨id, s, if_pos ⟨hid, rfl⟩, hregistered, .refl s, hid, rfl⟩
      | true =>
        refine .inl ⟨if_neg fun h => Bool.noConfusion h.2, .inl ?_⟩
        rw [register_of_registered hregistered]
        exact .refl s
    · rw [if_neg hid]
      exact .inl ⟨if_neg fun h => hid h.1, .inl (.refl s)⟩
  | unregister id => exact .inl ⟨rfl, .inr ⟨id, .refl _⟩⟩
  | close id =>
    refine .inl ⟨rfl, ?_⟩
    rcases close_cases id s with ⟨-, hsame⟩ | ⟨-, hleft⟩
    · rw [act, hsame]
      exact .inl (.refl s)
    · exact .inr ⟨id, hleft⟩
  | closeFromTask id =>
    refine .inl ⟨rfl, ?_⟩
    rcases closeFromTask_cases id s with hsame | hleft
    · rw [act, hsame]
      exact .inl (.refl s)
    · exact .inr ⟨id, hleft⟩
  | stop timeout id => exact .inl ⟨rfl, .inl (follows_stop id timeout s)⟩
  | dispatchFrame f => exact .inl ⟨rfl, .inl (follows_dispatchFrame f s)⟩
  | dispatchSubmaps submaps => exact .inl ⟨rfl, .inl (follows_dispatchSubmaps submaps s)⟩
  | run rounds id => exact .inl ⟨rfl, .inl (.onHost id () (fun h => Host.Acts.run rounds h) s)⟩
  | newFrame f id => exact .inl ⟨rfl, .inl (follows_newFrame f id s)⟩
  | updateSubmaps submaps id => exact .inl ⟨rfl, .inl (follows_updateSubmaps submaps id s)⟩
  | submit task id =>
    exact .inl ⟨rfl, .inl (.onHost id () (fun h => (Host.Acts.refl h).submit task) s)⟩
  | spinOnce id => exact .inl ⟨rfl, .inl (.onHost id () Host.Acts.spinOnce s)⟩
  | block | tick | subscribe | unsubscribe => exact .inl ⟨rfl, .inl (.quiet rfl rfl rfl)⟩

theorem InStep.act (h : InStep s) (move : SessionMove K ρ) : InStep (s.act move) := by
  rcases act_cases s move with ⟨-, hf | ⟨id, hf⟩⟩ | ⟨id, s', -, -, hf, hid, hregister⟩
  · exact h.follows hf
  · exact (h.unregister id).follows hf
  · rw [hregister]
    exact (h.follows hf).register hid

/-- In every run the slots hold the registered viewers. -/
theorem InStep.play (h : InStep s) (moves : List (SessionMove K ρ)) : InStep (s.play moves) := by
  induction moves generalizing s with
  | nil => exact h
  | cons move rest ih => exact ih (h.act move)

end Session

end LiveMap
