import LiveMap.Proofs.Session.Closing
import LiveMap.Proofs.Viewer.Interleaving
import LiveMap.Proofs.Viewer.OpenFrames
import Mathlib.Data.List.Dedup

/-!
# Registered viewers

The slots list the registered viewers in the order in which they were registered last. So a frame
that is told through the slots reaches each viewer once that was registered when it was told, even
if viewers come and go until the last of them has handled it.

## Main definitions

* `Session.registrations`: the viewers that moves register, in their order.
* `Session.Ranked`: both slots list the registered viewers in that order.
* `SessionMove.IsSilent`: nobody is told anything.
* `Session.dispatchAmid`: a frame told through the slots while viewers come and go.
* `Session.HandlesOnce`, `Session.Spares`: what a frame does to a viewer, or does not.

## Main statements

* `Session.Ranked.act`, `Session.Ranked.play`: one move, and a run.
* `Session.spares_act`: a silent move changes no account.
* `Session.slots_list_registered`: who stands in the slots, and whom a frame reaches.
-/

namespace LiveMap

variable {K ρ : Type}

/-! ## The order of registrations -/

/-- A number that comes once more at the end ranks last, among those that count then. -/
theorem filter_dedup_concat {p p' : Nat → Bool} {id : Nat} (hid : p id = false)
    (hp' : ∀ j, p' j = if id = j then true else p j) (log : List Nat) :
    (log ++ [id]).dedup.filter p' = log.dedup.filter p ++ [id] := by
  induction log with
  | nil => simp [hp']
  | cons j log ih =>
    by_cases hj : id = j
    · subst hj
      rw [List.cons_append, List.dedup_cons_of_mem (by simp), ih]
      by_cases hmem : id ∈ log
      · rw [List.dedup_cons_of_mem hmem]
      · rw [List.dedup_cons_of_notMem hmem, List.filter_cons_of_neg (by simp [hid])]
    · by_cases hmem : j ∈ log
      · rw [List.cons_append, List.dedup_cons_of_mem (by simp [hmem]),
          List.dedup_cons_of_mem hmem, ih]
      · rw [List.cons_append, List.dedup_cons_of_notMem (by simp [hmem, Ne.symm hj]),
          List.dedup_cons_of_notMem hmem, List.filter_cons, List.filter_cons, ih, hp',
          if_neg hj]
        split <;> rfl

/-- A number that does not count any more leaves the others in their order. -/
theorem erase_filter_dedup {p p' : Nat → Bool} {id : Nat}
    (hp' : ∀ j, p' j = if id = j then false else p j) (log : List Nat) :
    (log.dedup.filter p).erase id = log.dedup.filter p' := by
  rw [(log.nodup_dedup.filter p).erase_eq_filter, List.filter_filter]
  refine List.filter_congr fun j _ => ?_
  rw [hp']
  by_cases hj : id = j
  · simp [hj]
  · simp [hj, Ne.symm hj]

namespace Session

/-- The slots list the viewers of a log that are registered, in the order of their last entries. -/
structure Ranked (s : Session K ρ) (log : List Nat) : Prop where
  frames : s.frameSlot.entries = log.dedup.filter fun id => s.isRegistered id
  submaps : s.submapSlot.entries = log.dedup.filter fun id => s.isRegistered id

variable {s s' s'' : Session K ρ} {log : List Nat} {id : Nat}

namespace Ranked

theorem follows (h : s.Ranked log) (hf : Follows s s') : s'.Ranked log := by
  have hsame : (fun id => s'.isRegistered id) = fun id => s.isRegistered id :=
    funext hf.registered
  exact ⟨by rw [hf.frameSlot, h.frames, hsame], by rw [hf.submapSlot, h.submaps, hsame]⟩

theorem unregister (h : s.Ranked log) (id : Nat) : (s.unregister id).Ranked log := by
  cases hid : s.isRegistered id with
  | false => rwa [unregister_of_unregistered hid]
  | true =>
    obtain ⟨hframes, hsubmaps, hmembers⟩ := unregister_of_registered hid
    have hregistered := isRegistered_modify hmembers (fun _ => rfl) (lt_of_isRegistered hid)
    exact ⟨by rw [hframes, h.frames, erase_filter_dedup hregistered],
      by rw [hsubmaps, h.submaps, erase_filter_dedup hregistered]⟩

theorem register (h : s.Ranked log) (hid : s.isRegistered id = false)
    (hlength : id < s.members.length) : (s.register id).Ranked (log ++ [id]) := by
  obtain ⟨hframes, hsubmaps, hmembers⟩ := register_of_unregistered hid
  have hregistered := isRegistered_modify hmembers (fun _ => rfl) hlength
  exact ⟨by rw [hframes, h.frames, filter_dedup_concat hid hregistered],
    by rw [hsubmaps, h.submaps, filter_dedup_concat hid hregistered]⟩

end Ranked

variable [Scalar K]

/-- The viewers that moves register, in their order; one that is registered again comes again. -/
def registrations (s : Session K ρ) : List (SessionMove K ρ) → List Nat
  | [] => []
  | move :: rest => (s.registers? move).toList ++ (s.act move).registrations rest

theorem Ranked.act (h : s.Ranked log) (move : SessionMove K ρ) :
    (s.act move).Ranked (log ++ (s.registers? move).toList) := by
  rcases act_cases s move with
    ⟨hnone, hleft⟩ | ⟨id, s', hsome, hid, hf, hlength, hregister⟩
  · rw [hnone, Option.toList_none, List.append_nil]
    rcases hleft with hf | ⟨id, hf⟩
    · exact h.follows hf
    · exact (h.unregister id).follows hf
  · rw [hsome, hregister]
    exact (h.follows hf).register ((hf.registered id).trans hid) hlength

theorem Ranked.play (h : s.Ranked log) (moves : List (SessionMove K ρ)) :
    (s.play moves).Ranked (log ++ s.registrations moves) := by
  induction moves generalizing s log with
  | nil =>
    rw [registrations, List.append_nil]
    exact h
  | cons move rest ih =>
    rw [registrations, ← List.append_assoc]
    exact ih (h.act move)

omit [Scalar K] in
theorem IsFresh.ranked (h : s.IsFresh) : s.Ranked [] :=
  ⟨h.frames, h.submaps⟩

omit [Scalar K] in
theorem Lists.count {entries : List Nat} (h : s.Lists entries) (id : Nat) :
    entries.count id = if s.isRegistered id then 1 else 0 := by
  rw [h.nodup.count]
  simp only [h.mem]

end Session

/-! ## Silent moves -/

/-- Nobody tells a viewer anything, and no viewer tells anything. -/
def SessionMove.IsSilent : SessionMove K ρ → Prop
  | .dispatchFrame _ | .dispatchSubmaps _ | .run _ _ | .newFrame _ _ | .updateSubmaps _ _
  | .spinOnce _ => False
  | _ => True

/-- A viewer that has seen nothing has nothing to account for. -/
def Account.IsBlank [Scalar K] (a : Account K) : Prop :=
  (∃ tolerance, a.trajectory = .start tolerance) ∧ a.stats = {} ∧ ∀ o, a.published o = 0

namespace Session

variable {s s' s'' : Session K ρ} {id : Nat}

theorem account?_modify {j : Nat} {f : Member K → Member K}
    (hmembers : s'.members = s.members.modify j f) (hsent : s'.bus.sent = s.bus.sent)
    (hchannels : s'.bus.channels = s.bus.channels) (hf : ∀ m, (f m).viewer = m.viewer) :
    s'.account? id = s.account? id := by
  refine account?_congr ?_ (congrArg _ hsent) fun o => by rw [hchannels]
  rw [hmembers, List.getElem?_modify]
  by_cases hj : j = id
  · simp [hj, Function.comp_def, hf]
  · simp [hj]

theorem account?_register (j : Nat) (s : Session K ρ) :
    (s.register j).account? id = s.account? id := by
  cases hj : s.isRegistered j with
  | true => rw [register_of_registered hj]
  | false =>
    have hbus : (s.register j).bus.sent = s.bus.sent ∧
        (s.register j).bus.channels = s.bus.channels := by
      rw [register, hj, if_neg Bool.false_ne_true]
      exact ⟨rfl, rfl⟩
    exact account?_modify (register_of_unregistered hj).2.2 hbus.1 hbus.2 fun _ => rfl

theorem account?_unregister (j : Nat) (s : Session K ρ) :
    (s.unregister j).account? id = s.account? id := by
  cases hj : s.isRegistered j with
  | false => rw [unregister_of_unregistered hj]
  | true =>
    have hbus : (s.unregister j).bus.sent = s.bus.sent ∧
        (s.unregister j).bus.channels = s.bus.channels := by
      rw [unregister, if_pos hj]
      unfold leaveSubmaps leaveFrames
      split <;> split <;> exact ⟨rfl, rfl⟩
    exact account?_modify (unregister_of_registered hj).2.2 hbus.1 hbus.2 fun _ => rfl

theorem account?_setClosed (j : Nat) (s : Session K ρ) :
    (s.modifyMember j fun m => { m with closed := true }).account? id = s.account? id :=
  account?_modify rfl rfl rfl fun _ => rfl

theorem noted_stop (timeout : Option K) (h : ViewerHost K ρ) :
    h.surroundings.OnlyNotes (h.stop timeout).1.surroundings :=
  Host.surroundings_stop (P := h.surroundings.OnlyNotes)
    (fun _ _ hs => ⟨hs.viewer, hs.sent, hs.channels⟩) ⟨rfl, rfl, rfl⟩ timeout

theorem account?_stop (j : Nat) (timeout : Option K) (s : Session K ρ) :
    (s.stop j timeout).1.account? id = s.account? id :=
  account?_onHost_of_noted fun h _ => noted_stop timeout h

theorem account?_close (j : Nat) (s : Session K ρ) :
    (s.close j).1.account? id = s.account? id := by
  unfold close
  split
  · rfl
  · have hstopped : ((s.unregister j).stop j none).1.account? id = s.account? id :=
      (account?_stop j none (s.unregister j)).trans (account?_unregister j s)
    split
    next heq =>
      rw [heq] at hstopped
      exact (account?_setClosed j _).trans hstopped
    next heq =>
      rw [heq] at hstopped
      exact hstopped

theorem account?_closeFromTask (j : Nat) (s : Session K ρ) :
    (s.closeFromTask j).account? id = s.account? id := by
  unfold closeFromTask
  split
  · rfl
  · refine (account?_setClosed j _).trans
      ((account?_onHost_of_noted fun h _ => ?_).trans (account?_unregister j s))
    exact noted_stop none { h with onLoopThread := true }

/-- Nothing reaches a viewer: it has the same to account for, and if it was opened in the meantime
nothing. -/
structure Spares [Scalar K] (id : Nat) (s s' : Session K ρ) : Prop where
  opened : ∀ a, s.account? id = some a → s'.account? id = some a
  unopened : s.account? id = none → ∀ a, s'.account? id = some a → a.IsBlank

variable [Scalar K]

namespace Spares

theorem of_eq (h : s'.account? id = s.account? id) : Spares id s s' := by
  refine ⟨fun a ha => h.trans ha, fun hnone a ha => ?_⟩
  rw [h, hnone] at ha
  cases ha

theorem trans (h : Spares id s s') (h' : Spares id s' s'') : Spares id s s'' := by
  refine ⟨fun a ha => h'.opened a (h.opened a ha), fun hnone a ha => ?_⟩
  cases hmiddle : s'.account? id with
  | none => exact h'.unopened hmiddle a ha
  | some b =>
    obtain rfl : b = a := Option.some.inj ((h'.opened b hmiddle).symm.trans ha)
    exact h.unopened hnone b hmiddle

theorem addViewer (settings : Settings K) (s : Session K ρ) :
    Spares id s (s.addViewer settings) := by
  rcases Nat.lt_trichotomy id s.members.length with hid | hid | hid
  · refine of_eq (account?_congr (congrArg _ (List.getElem?_append_left hid)) rfl fun o => ?_)
    exact congrArg Channel.published (if_neg hid.ne)
  · refine ⟨fun a ha => ?_, fun _ a ha => ?_⟩
    · rw [account?, List.getElem?_eq_none hid.ge] at ha
      cases ha
    · obtain ⟨m, hm, rfl⟩ := Option.map_eq_some_iff.mp ha
      rw [hid] at hm
      obtain rfl := Option.some.inj ((List.getElem?_concat_length ..).symm.trans hm)
      exact ⟨⟨_, rfl⟩, rfl, fun o => congrArg Channel.published (if_pos hid)⟩
  · have hlength : (s.addViewer settings).members.length = s.members.length + 1 :=
      List.length_append
    refine of_eq ?_
    rw [account?, account?, List.getElem?_eq_none hid.le, List.getElem?_eq_none (by omega)]
    rfl

end Spares

/-- A silent move changes no account. -/
theorem spares_act {move : SessionMove K ρ} (hmove : move.IsSilent) (id : Nat)
    (s : Session K ρ) : Spares id s (s.act move) := by
  cases move with
  | launch settings registers =>
    have hlaunched : Spares id s (s.addViewer settings) := .addViewer settings s
    cases registers with
    | false => exact hlaunched
    | true => exact hlaunched.trans (.of_eq (account?_register _ _))
  | register j =>
    rw [act]
    split
    · exact .of_eq (account?_register j s)
    · exact .of_eq rfl
  | unregister j => exact .of_eq (account?_unregister j s)
  | close j => exact .of_eq (account?_close j s)
  | closeFromTask j => exact .of_eq (account?_closeFromTask j s)
  | stop timeout j => exact .of_eq (account?_stop j timeout s)
  | submit task j =>
    refine .of_eq (account?_onHost_of_noted fun h _ => ?_)
    exact Host.surroundings_submit (P := h.surroundings.OnlyNotes)
      (fun _ _ hs => ⟨hs.viewer, hs.sent, hs.channels⟩) ⟨rfl, rfl, rfl⟩ task
  | block | tick => exact .of_eq rfl
  | subscribe a l =>
    exact .of_eq (account?_congr rfl rfl fun o => Bus.published_subscribe a l s.bus (id, o))
  | unsubscribe a handle =>
    exact .of_eq (account?_congr rfl rfl fun o => Bus.published_unsubscribe a handle s.bus (id, o))
  | dispatchFrame | dispatchSubmaps | run | newFrame | updateSubmaps | spinOnce =>
    exact hmove.elim

theorem spares_play {moves : List (SessionMove K ρ)} (hmoves : ∀ move ∈ moves, move.IsSilent)
    (id : Nat) (s : Session K ρ) : Spares id s (s.play moves) := by
  induction moves generalizing s with
  | nil => exact .of_eq rfl
  | cons move rest ih =>
    obtain ⟨hmove, hrest⟩ := List.forall_mem_cons.mp hmoves
    exact (spares_act hmove id s).trans (ih hrest _)

/-! ## Frames through the slots -/

/-- A frame told to the viewers that are registered now, where others may act before each of them
handles it. -/
def dispatchAmid (f : EstimationFrame K) (acts : Nat → List (SessionMove K ρ))
    (s : Session K ρ) : Session K ρ × Option PoseError :=
  invokeAll (fun id w => (w.play (acts id)).newFrame f id) s.frameSlot.entries s

/-- If nobody acts in between, this is how a frame is told. -/
theorem dispatchAmid_nil (f : EstimationFrame K) (s : Session K ρ) :
    s.dispatchAmid f (fun _ => []) = s.dispatchFrame f := rfl

/-- A viewer handles a frame to its end at one time and nothing reaches it before or after that. The
frame is counted once and enters the trajectory once. -/
def HandlesOnce (f : EstimationFrame K) (id : Nat) (s s' : Session K ρ) : Prop :=
  ∃ (w : Session K ρ) (a a' : Account K), s.account? id = some a ∧ w.account? id = some a ∧
    (w.newFrame f id).2 = none ∧ (w.newFrame f id).1.account? id = some a' ∧
    s'.account? id = some a' ∧ a'.trajectory = a.trajectory.add f.stamp f.pose ∧
    a'.stats.frames = a.stats.frames + 1

theorem account?_newFrame_of_ne {j : Nat} (hne : j ≠ id) (f : EstimationFrame K)
    (s : Session K ρ) : (s.newFrame f id).1.account? j = s.account? j :=
  account?_onHost_of_ne hne (fun h => ⟨.refl _, .newFrame f h.surroundings⟩) s

omit [Scalar K] in
theorem account?_putHost {m : Member K} (hm : s.members[id]? = some m) (h : ViewerHost K ρ) :
    (s.putHost id h).account? id = some
      { trajectory := h.surroundings.viewer.trajectory
        stats := h.surroundings.viewer.stats
        told := h.surroundings.bus.sent.filter fun p => p.1.1 = id
        published := fun o => (h.surroundings.bus.channels (id, o)).published } := by
  simp [account?, putHost, hm]

omit [Scalar K] in
theorem exists_host?_of_account? {a : Account K} (ha : s.account? id = some a) :
    ∃ m h, s.members[id]? = some m ∧ s.host? id = some h ∧
      h.surroundings.viewer.trajectory = a.trajectory ∧ h.surroundings.viewer.stats = a.stats := by
  obtain ⟨m, hm, rfl⟩ := Option.map_eq_some_iff.mp ha
  exact ⟨m, _, hm, by rw [host?, hm]; rfl, rfl, rfl⟩

theorem exists_account?_newFrame {a : Account K} (ha : s.account? id = some a)
    (f : EstimationFrame K) : ∃ a', (s.newFrame f id).1.account? id = some a' ∧
      a'.trajectory = a.trajectory.add f.stamp f.pose ∧ a'.stats.frames = a.stats.frames + 1 := by
  obtain ⟨m, h, hm, hhost, htrajectory, hstats⟩ := exists_host?_of_account? ha
  obtain ⟨hadded, hcounted⟩ := Station.viewer_newFrame f h.surroundings
  rw [← htrajectory, ← hstats, newFrame, onStation, onHost_of_host? hhost]
  exact ⟨_, account?_putHost hm _, hadded, hcounted⟩

/-- By induction on the viewers that are told: the one that is next is reached only now, and those
before it are not reached again. -/
theorem handlesOnce_or_spares {f : EstimationFrame K} {acts : Nat → List (SessionMove K ρ)}
    (hacts : ∀ id, ∀ move ∈ acts id, move.IsSilent) {ids : List Nat} (hnodup : ids.Nodup)
    (hopened : ∀ id ∈ ids, ∃ a, s.account? id = some a)
    (h : invokeAll (fun id w => (w.play (acts id)).newFrame f id) ids s = (s', none)) (id : Nat) :
    (id ∈ ids → HandlesOnce f id s s') ∧ (id ∉ ids → Spares id s s') := by
  induction ids generalizing s with
  | nil =>
    obtain ⟨rfl, -⟩ := Prod.mk.inj h
    exact ⟨fun hid => absurd hid List.not_mem_nil, fun _ => .of_eq rfl⟩
  | cons first rest ih =>
    obtain ⟨hfirst, hrest⟩ := List.nodup_cons.mp hnodup
    have hbefore (j : Nat) : Spares j s (s.play (acts first)) := spares_play (hacts first) j s
    obtain ⟨w, hhandled, hlater⟩ : ∃ w, (s.play (acts first)).newFrame f first = (w, none) ∧
        invokeAll (fun id w => (w.play (acts id)).newFrame f id) rest w = (s', none) := by
      rw [invokeAll] at h
      split at h
      next => cases h
      next w hw => exact ⟨w, hw, h⟩
    have hothers {j : Nat} (hne : j ≠ first) : Spares j s w := by
      have hsame := account?_newFrame_of_ne hne f (s.play (acts first))
      rw [hhandled] at hsame
      exact (hbefore j).trans (.of_eq hsame)
    have hthen := ih hrest (fun j hj => ?_) hlater
    · by_cases hid : id = first
      · subst hid
        refine ⟨fun _ => ?_, fun hnot => absurd List.mem_cons_self hnot⟩
        obtain ⟨a, ha⟩ := hopened id List.mem_cons_self
        have hnow := (hbefore id).opened a ha
        obtain ⟨a', ha', htrajectory, hframes⟩ := exists_account?_newFrame hnow f
        refine ⟨_, a, a', ha, hnow, congrArg Prod.snd hhandled, ha', ?_, htrajectory, hframes⟩
        rw [hhandled] at ha'
        exact (hthen.2 hfirst).opened a' ha'
      · rw [List.mem_cons, or_iff_right hid]
        refine ⟨fun hmem => ?_, fun hnot => (hothers hid).trans (hthen.2 hnot)⟩
        obtain ⟨v, a, a', ha, hv, hdone, ha', hs', hcounted⟩ := hthen.1 hmem
        obtain ⟨b, hb⟩ := hopened id (List.mem_cons_of_mem _ hmem)
        obtain rfl : b = a := Option.some.inj (((hothers hid).opened b hb).symm.trans ha)
        exact ⟨v, b, a', hb, hv, hdone, ha', hs', hcounted⟩
    · obtain ⟨a, ha⟩ := hopened j (List.mem_cons_of_mem _ hj)
      exact ⟨a, (hothers fun heq => hfirst (heq ▸ hj)).opened a ha⟩

/-- After any history of any number of viewers, both slots hold every registered viewer once and
nobody else, in the order in which they were registered last. So a frame that is told through the
slots, and that no viewer fails on, is handled once by each viewer that was registered when it was
told, and reaches no other, even if viewers are opened, registered and closed before all of them
have handled it. -/
theorem slots_list_registered {start : Session K ρ} (hstart : start.IsFresh)
    (moves : List (SessionMove K ρ)) (hplay : start.play moves = s) :
    (∀ id, s.frameSlot.entries.count id = (if s.isRegistered id then 1 else 0) ∧
      s.submapSlot.entries.count id = if s.isRegistered id then 1 else 0) ∧
    s.frameSlot.entries = s.submapSlot.entries ∧
    s.frameSlot.entries =
      (start.registrations moves).dedup.filter (fun id => s.isRegistered id) ∧
    ∀ (f : EstimationFrame K) (acts : Nat → List (SessionMove K ρ)) (told : Session K ρ),
      (∀ id, ∀ move ∈ acts id, move.IsSilent) → s.dispatchAmid f acts = (told, none) →
      ∀ id, if s.isRegistered id then HandlesOnce f id s told else Spares id s told := by
  have hstep : s.InStep := hplay ▸ hstart.inStep.play moves
  have hranked : s.Ranked (start.registrations moves) := hplay ▸ hstart.ranked.play moves
  refine ⟨fun id => ⟨hstep.frames.count id, hstep.submaps.count id⟩,
    hranked.frames.trans hranked.submaps.symm, hranked.frames, fun f acts told hacts htold id => ?_⟩
  have hopened : ∀ j ∈ s.frameSlot.entries, ∃ a, s.account? j = some a := by
    intro j hj
    have hlength := lt_of_isRegistered ((hstep.frames.mem j).mp hj)
    exact ⟨_, by rw [account?, List.getElem?_eq_getElem hlength]; rfl⟩
  obtain ⟨hreached, hspared⟩ := handlesOnce_or_spares hacts hstep.frames.nodup hopened htold id
  split
  next hid => exact hreached ((hstep.frames.mem id).mpr hid)
  next hid => exact hspared fun hmem => hid ((hstep.frames.mem id).mp hmem)

/-! ### A dispatch that does not fail -/

section Exact

variable {f : EstimationFrame ℝ} {s : Session ℝ ρ}

/-- All trajectories are proper. -/
def IsProper (s : Session ℝ ρ) : Prop := ∀ id a, s.account? id = some a → a.trajectory.IsProper

theorem IsProper.newFrame (h : s.IsProper) (hpose : f.pose.IsProper)
    (hextrinsic : f.extrinsic.IsProper) (id : Nat) :
    (s.newFrame f id).2 = none ∧ (s.newFrame f id).1.IsProper := by
  cases ha : s.account? id with
  | none =>
    have habsent : s.newFrame f id = (s, none) := by
      rw [Session.newFrame, onStation, onHost, host?, Option.map_eq_none_iff.mp ha]
      rfl
    rw [habsent]
    exact ⟨rfl, h⟩
  | some a =>
    obtain ⟨m, host, -, hhost, htrajectory, -⟩ := exists_host?_of_account? ha
    refine ⟨?_, fun j b hb => ?_⟩
    · rw [Session.newFrame, onStation, onHost_of_host? hhost]
      exact Station.newFrame_succeeds (htrajectory ▸ h id a ha) hpose hextrinsic
    · by_cases hj : j = id
      · subst hj
        obtain ⟨a', ha', hadded, -⟩ := exists_account?_newFrame ha f
        obtain rfl : a' = b := Option.some.inj (ha'.symm.trans hb)
        rw [hadded]
        exact (h j a ha).add f.stamp hpose
      · rw [account?_newFrame_of_ne hj] at hb
        exact h j b hb

/-- A frame with proper poses does not fail on viewers whose trajectories are proper. -/
theorem IsProper.dispatchFrame (h : s.IsProper) (hpose : f.pose.IsProper)
    (hextrinsic : f.extrinsic.IsProper) : (s.dispatchFrame f).2 = none :=
  invokeAll_succeeds (P := IsProper) (fun id _ _ hw => hw.newFrame hpose hextrinsic id) h

/-- Viewers that were told nothing have proper trajectories. -/
theorem isProper_play {start : Session ℝ ρ} (hstart : start.IsFresh)
    {moves : List (SessionMove ℝ ρ)} (hmoves : ∀ move ∈ moves, move.IsSilent) :
    (start.play moves).IsProper := by
  intro id a ha
  have hnone : start.account? id = none := by
    rw [account?, hstart.members]
    rfl
  obtain ⟨⟨tolerance, htrajectory⟩, -⟩ := (spares_play hmoves id start).unopened hnone a ha
  rw [htrajectory]
  exact Trajectory.isProper_start tolerance

/-- A session without viewers, in exact arithmetic. -/
noncomputable def vacant : Session ℝ Empty :=
  { bus := { channels := fun _ => { topic := "" }, script := nofun }, now := 0, wallClock := 0 }

/-- Of three viewers the last is registered late, the first once more, and the second is closed. -/
noncomputable def comeAndGone : List (SessionMove ℝ Empty) :=
  [.launch .short true, .launch .short true, .launch .short false, .unregister 0, .register 2,
    .register 0, .register 0, .close 1]

/-- A frame reaches the third viewer and the first, in this order, and not the second. -/
theorem slots_list_comeAndGone :
    (vacant.play comeAndGone).frameSlot.entries = [2, 0] ∧
    (vacant.play comeAndGone).submapSlot.entries = [2, 0] ∧
    ∃ told, (vacant.play comeAndGone).dispatchFrame FrameRun.frameAhead = (told, none) ∧
      HandlesOnce FrameRun.frameAhead 0 (vacant.play comeAndGone) told ∧
      HandlesOnce FrameRun.frameAhead 2 (vacant.play comeAndGone) told ∧
      Spares 1 (vacant.play comeAndGone) told := by
  have hstart : vacant.IsFresh := ⟨rfl, rfl, rfl⟩
  have hsilent : ∀ move ∈ comeAndGone, move.IsSilent := by
    simp [comeAndGone, SessionMove.IsSilent]
  have hpose : FrameRun.frameAhead.pose.IsProper := Mat3.isRotation_identity
  have htold := (isProper_play hstart hsilent).dispatchFrame hpose Pose.isProper_identity
  obtain ⟨-, -, -, hreached⟩ := slots_list_registered hstart comeAndGone rfl
  have hids := hreached FrameRun.frameAhead (fun _ => []) _ (by simp) (Prod.ext rfl htold)
  exact ⟨rfl, rfl, _, Prod.ext rfl htold, hids 0, hids 2, hids 1⟩

end Exact

end Session

end LiveMap
