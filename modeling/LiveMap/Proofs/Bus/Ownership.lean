import LiveMap.Proofs.Bus.Wiring
import Mathlib.Algebra.BigOperators.Finprod

/-!
# Who owns the subscriptions of a bus

What anyone owns at any time can be told from its own attaches and detaches alone: a frame tree owns
one subscription while it is attached, and a scene owns one for every part that was enabled since it
was detached. Nobody touches what others own, so nothing is left of clients that are detached.

## Main definitions

* `Attachment.Enables`: the channels that an attach of a scene enables.
* `Wiring.fedFrom`, `Wiring.attachments`: what the moves say about a client.
* `Ledger.SameDirects`: two ledgers agree on the direct subscriptions.
* `Wiring.IsFresh`, `Wiring.ledger`: the start of a run, and all that is written during it.

## Main statements

* `Wiring.subscriptions_owned`: what is owned, and what is left when all clients are detached.
-/

namespace LiveMap

variable {K χ ρ : Type}

/-! ## What the moves say -/

namespace Attachment

/-- The channel of the relations is enabled at all times, the others when they are wanted. -/
def Enables (t : Attachment χ) (a : χ) : Prop :=
  a = t.outputs.channel .relations ∨ (t.points = true ∧ a = t.outputs.channel .points) ∨
    (t.map = true ∧ a = t.outputs.channel .map) ∨ (t.pose = true ∧ a = t.outputs.channel .pose)

instance [DecidableEq χ] (t : Attachment χ) (a : χ) : Decidable (t.Enables a) :=
  inferInstanceAs (Decidable (_ ∨ _))

theorem nodup_parts (t : Attachment χ) : t.parts.Nodup := by
  have h : ∀ points map pose, (Bus.sceneParts points map pose).Nodup := by decide
  exact h t.points t.map t.pose

theorem mem_channels (t : Attachment χ) (a : χ) :
    a ∈ t.parts.map t.outputs.channel ↔ t.Enables a := by
  obtain ⟨_, points, map, pose⟩ := t
  cases points <;> cases map <;> cases pose <;> simp [parts, Bus.sceneParts, Enables]

theorem count_channels [DecidableEq χ] (t : Attachment χ) (a : χ) :
    (t.parts.map t.outputs.channel).count a = if t.Enables a then 1 else 0 := by
  rw [(t.nodup_parts.map t.outputs.injective).count]
  exact if_congr (t.mem_channels a) rfl rfl

theorem count_flatMap [DecidableEq χ] (ts : List (Attachment χ)) (a : χ) :
    (ts.flatMap fun t => t.parts.map t.outputs.channel).count a =
      ts.countP fun t => t.Enables a := by
  induction ts with
  | nil => rfl
  | cons t rest ih =>
    rw [List.flatMap_cons, List.count_append, count_channels, ih, List.countP_cons]
    simp [Nat.add_comm]

end Attachment

namespace Wiring

/-- The channel that feeds a frame tree after a move. -/
def fedBy (index : Nat) (fed : Option χ) : Move χ ρ → Option χ
  | .attachTree i a => if i = index then some a else fed
  | .detachTree i => if i = index then none else fed
  | .attachScene _ _ _ | .detachScene _ | .subscribe _ _ | .unsubscribe _ => fed

/-- The channel to which a frame tree was attached last, unless it was detached since. -/
def fedFrom (index : Nat) (moves : List (Move χ ρ)) : Option χ := moves.foldl (fedBy index) none

def attachedBy (index : Nat) (attached : List (Attachment χ)) : Move χ ρ → List (Attachment χ)
  | .attachScene i t _ => if i = index then attached ++ [t] else attached
  | .detachScene i => if i = index then [] else attached
  | .attachTree _ _ | .detachTree _ | .subscribe _ _ | .unsubscribe _ => attached

/-- The attaches of a scene since it was last detached. -/
def attachments (index : Nat) (moves : List (Move χ ρ)) : List (Attachment χ) :=
  moves.foldl (attachedBy index) []

end Wiring

/-! ## Leases of clients -/

/-- How often something stands in a list, over all that there is. -/
theorem finsum_count [DecidableEq χ] (xs : List χ) : ∑ᶠ a, xs.count a = xs.length := by
  rw [finsum_eq_sum_of_support_subset (s := xs.toFinset), List.sum_toFinset_count_eq_length]
  intro a ha
  exact List.mem_toFinset.mpr (List.count_pos_iff.mp (Nat.pos_of_ne_zero ha))

namespace Ledger

open Wiring

variable [DecidableEq χ]

theorem map_channel_grantParts (index : Nat) (address : Output → χ) (parts : List Output)
    (L : Ledger χ ρ) :
    ((L.grantParts index address parts).leasesOf (.scene index)).map Lease.channel =
      (L.leasesOf (.scene index)).map Lease.channel ++ parts.map address := by
  induction parts generalizing L with
  | nil => simp [grantParts]
  | cons part rest ih =>
    refine (ih _).trans ?_
    rw [leasesOf_grant, if_pos rfl]
    simp

/-- A frame tree has a lease where it is fed from. -/
theorem map_channel_step_tree {index : Nat} {fed : Option χ} {L : Ledger χ ρ}
    (h : (L.leasesOf (.tree index)).map Lease.channel = fed.toList) (m : Wiring.Move χ ρ) :
    ((L.step m).leasesOf (.tree index)).map Lease.channel = (fedBy index fed m).toList := by
  by_cases hm : .tree index = m.mover L.directs
  · cases m with
    | attachTree i a =>
      obtain rfl : index = i := by simpa [Wiring.Move.mover] using hm
      simp [step, fedBy, leasesOf_grant, leasesOf_release]
    | detachTree i =>
      obtain rfl : index = i := by simpa [Wiring.Move.mover] using hm
      simp [step, fedBy, leasesOf_release]
    | attachScene | detachScene | subscribe | unsubscribe => cases hm
  · rw [leasesOf_step m L hm, h]
    cases m with
    | attachTree i a | detachTree i =>
      have hi : i ≠ index := fun hi => hm (hi ▸ rfl)
      rw [fedBy, if_neg hi]
    | attachScene | detachScene | subscribe | unsubscribe => rfl

/-- A scene has a lease for every part of its attaches. -/
theorem map_channel_step_scene {index : Nat} {attached : List (Attachment χ)} {L : Ledger χ ρ}
    (h : (L.leasesOf (.scene index)).map Lease.channel =
      attached.flatMap fun t => t.parts.map t.outputs.channel) (m : Wiring.Move χ ρ) :
    ((L.step m).leasesOf (.scene index)).map Lease.channel =
      (attachedBy index attached m).flatMap fun t => t.parts.map t.outputs.channel := by
  by_cases hm : .scene index = m.mover L.directs
  · cases m with
    | attachScene i t paths =>
      obtain rfl : index = i := by simpa [Wiring.Move.mover] using hm
      simp only [step, attachedBy, if_true, List.flatMap_append, map_channel_grantParts, h]
      simp
    | detachScene i =>
      obtain rfl : index = i := by simpa [Wiring.Move.mover] using hm
      simp [step, attachedBy, leasesOf_release]
    | attachTree | detachTree | subscribe | unsubscribe => cases hm
  · rw [leasesOf_step m L hm, h]
    cases m with
    | attachScene i t paths | detachScene i =>
      have hi : i ≠ index := fun hi => hm (hi ▸ rfl)
      rw [attachedBy, if_neg hi]
    | attachTree | detachTree | subscribe | unsubscribe => rfl

/-! ## Direct leases -/

/-- The direct leases, without their handles. -/
def directSeats (L : Ledger χ ρ) : List (Owner × χ × Listener ρ) :=
  (L.leases.filter fun e => e.owner.isDirect).map Lease.seat

omit [DecidableEq χ] in
theorem directSeats_release (c : Owner) (L : Ledger χ ρ) :
    (L.release c).directSeats = L.directSeats.filter fun s => s.1 ≠ c := by
  rw [directSeats, directSeats, release, List.filter_map, List.filter_filter, List.filter_filter]
  exact congrArg _ (List.filter_congr fun e _ => Bool.and_comm _ _)

omit [DecidableEq χ] in
theorem directSeats_release_client {c : Owner} (h : c.isDirect = false) (L : Ledger χ ρ) :
    (L.release c).directSeats = L.directSeats := by
  rw [directSeats_release, List.filter_eq_self]
  intro s hs
  obtain ⟨e, he, rfl⟩ := List.mem_map.mp hs
  have hdirect : e.owner.isDirect = true := by simpa using (List.mem_filter.mp he).2
  have hne : e.owner ≠ c := fun hc => by simp [← hc, hdirect] at h
  exact decide_eq_true hne

theorem directSeats_grant (c : Owner) (a : χ) (l : Listener ρ) (L : Ledger χ ρ) :
    (L.grant c a l).directSeats = L.directSeats ++ if c.isDirect then [(c, a, l)] else [] := by
  rw [directSeats, grant, List.filter_append, List.map_append, directSeats]
  cases h : c.isDirect <;> simp [h, Lease.seat]

theorem directSeats_grantParts (index : Nat) (address : Output → χ) (parts : List Output)
    (L : Ledger χ ρ) : (L.grantParts index address parts).directSeats = L.directSeats := by
  induction parts generalizing L with
  | nil => rfl
  | cons part rest ih =>
    refine (ih _).trans ?_
    rw [directSeats_grant]
    exact List.append_nil _

/-- Two ledgers have the same direct leases up to handles, at the same numbers. -/
def SameDirects (L M : Ledger χ ρ) : Prop :=
  L.directSeats = M.directSeats ∧ L.directs = M.directs

/-- What clients do leaves the direct leases as they are. -/
theorem SameDirects.step_client {L M : Ledger χ ρ} (h : SameDirects L M) {m : Wiring.Move χ ρ}
    (hm : m.isDirect = false) : SameDirects (L.step m) M := by
  cases m with
  | attachTree index a =>
    refine ⟨?_, h.2⟩
    rw [step, directSeats_grant, directSeats_release_client rfl, h.1]
    exact List.append_nil _
  | detachTree index | detachScene index =>
    refine ⟨?_, h.2⟩
    rw [step, directSeats_release_client rfl, h.1]
  | attachScene index t paths =>
    exact ⟨(directSeats_grantParts index _ _ L).trans h.1,
      (directs_grantParts index _ _ L).trans h.2⟩
  | subscribe | unsubscribe => cases hm

theorem SameDirects.step_direct {L M : Ledger χ ρ} (h : SameDirects L M) {m : Wiring.Move χ ρ}
    (hm : m.isDirect = true) : SameDirects (L.step m) (M.step m) := by
  cases m with
  | subscribe a l =>
    refine ⟨?_, congrArg (· + 1) h.2⟩
    have hL := directSeats_grant (.direct L.directs) a l L
    have hM := directSeats_grant (.direct M.directs) a l M
    refine hL.trans (Eq.trans ?_ hM.symm)
    rw [h.1, h.2]
  | unsubscribe place =>
    refine ⟨?_, h.2⟩
    rw [step, step, directSeats_release, directSeats_release, h.1]
  | attachTree | detachTree | attachScene | detachScene => cases hm

/-- By one move after the other; moves of clients do not count. -/
theorem SameDirects.play {L M : Ledger χ ρ} (h : SameDirects L M) (moves : List (Wiring.Move χ ρ)) :
    SameDirects (moves.foldl step L) ((moves.filter Wiring.Move.isDirect).foldl step M) := by
  rw [List.foldl_filter]
  refine List.foldl_rel h fun m _ L' M' h' => ?_
  split
  · next hm => exact h'.step_direct hm
  · next hm => exact h'.step_client (Bool.eq_false_of_not_eq_true hm)

/-- The listeners of a channel when nobody but direct subscribers is left. -/
theorem listeners_of_direct {L : Ledger χ ρ} (h : ∀ e ∈ L.leases, e.owner.isDirect = true) (a : χ) :
    (L.leasesOn a).map Lease.listener =
      (L.directSeats.filter fun s => s.2.1 = a).map fun s => s.2.2 := by
  rw [directSeats, List.filter_eq_self.mpr h, List.filter_map, List.map_map]
  rfl

end Ledger

/-! ## Runs from nothing -/

namespace Wiring

open Ledger

/-- Nobody listens, and nobody holds a handle. -/
structure IsFresh (w : Wiring K χ ρ) : Prop where
  silent : ∀ a, (w.bus.channels a).live = []
  keyless : ∀ c, w.keys c = []

variable [DecidableEq χ]

omit [DecidableEq χ] in
/-- The ledger in which nothing was written yet. -/
def blank (w : Wiring K χ ρ) : Ledger χ ρ := { opened := fun a => w.bus.nextHandle a }

/-- All that moves write into a ledger that is blank at first. -/
def ledger (w : Wiring K χ ρ) (moves : List (Move χ ρ)) : Ledger χ ρ := moves.foldl step w.blank

theorem IsFresh.sound {w : Wiring K χ ρ} (h : w.IsFresh) :
    Sound w.bus.trees.length w.bus.scenes.length w w.blank where
  follows := by
    refine ⟨h.silent, fun _ => rfl, fun c key hkey => ?_, fun e he => absurd he List.not_mem_nil,
      fun c _ => h.keyless c⟩
    rw [show w.bus.heldBy w.directs c = [] from h.keyless c] at hkey
    exact absurd hkey List.not_mem_nil
  maker e he := absurd he List.not_mem_nil
  directs := by
    have hfirst : (w.directs[0]?).toList = [] := h.keyless (.direct 0)
    simpa [blank] using hfirst
  trees := rfl
  scenes := rfl

theorem map_channel_tree (w : Wiring K χ ρ) (moves : List (Move χ ρ)) (index : Nat) :
    ((w.ledger moves).leasesOf (.tree index)).map Lease.channel = (fedFrom index moves).toList :=
  List.foldl_rel
    (r := fun (L : Ledger χ ρ) fed =>
      (L.leasesOf (.tree index)).map Lease.channel = Option.toList fed) rfl
    fun m _ _ _ h => map_channel_step_tree h m

theorem map_channel_scene (w : Wiring K χ ρ) (moves : List (Move χ ρ)) (index : Nat) :
    ((w.ledger moves).leasesOf (.scene index)).map Lease.channel =
      (attachments index moves).flatMap fun t => t.parts.map t.outputs.channel :=
  List.foldl_rel
    (r := fun (L : Ledger χ ρ) (attached : List (Attachment χ)) =>
      (L.leasesOf (.scene index)).map Lease.channel =
        attached.flatMap fun t => t.parts.map t.outputs.channel) rfl
    fun m _ _ _ h => map_channel_step_scene h m

omit [DecidableEq χ] in
/-- Direct subscribers attach no client. -/
theorem detached_filter_isDirect (moves : List (Move χ ρ)) (index : Nat) :
    fedFrom index (moves.filter Move.isDirect) = none ∧
      attachments index (moves.filter Move.isDirect) = [] := by
  rw [fedFrom, attachments, List.foldl_filter, List.foldl_filter]
  constructor
  · exact List.foldl_fixed' (fun m => by cases m <;> rfl) _
  · exact List.foldl_fixed' (fun m => by cases m <;> rfl) _

/-- When all clients are detached, whatever is live was made directly. -/
theorem isDirect_of_detached (w : Wiring K χ ρ) {moves : List (Move χ ρ)}
    (h : ∀ index, fedFrom index moves = none ∧ attachments index moves = []) :
    ∀ e ∈ (w.ledger moves).leases, e.owner.isDirect = true := by
  intro e he
  have hmem {c : Owner} (hc : e.owner = c) : e ∈ (w.ledger moves).leasesOf c :=
    List.mem_filter.mpr ⟨he, decide_eq_true hc⟩
  cases hc : e.owner with
  | tree index =>
    have hnone := w.map_channel_tree moves index
    rw [(h index).1, Option.toList_none, List.map_eq_nil_iff] at hnone
    exact absurd (hnone ▸ hmem hc) List.not_mem_nil
  | scene index =>
    have hnone := w.map_channel_scene moves index
    rw [(h index).2, List.flatMap_nil, List.map_eq_nil_iff] at hnone
    exact absurd (hnone ▸ hmem hc) List.not_mem_nil
  | direct place => rfl

section Fresh

variable {start : Wiring K χ ρ} (hfresh : start.IsFresh) {moves : List (Move χ ρ)}
  (hmoves : ∀ m ∈ moves, m.Within start.bus.trees.length start.bus.scenes.length)

include hfresh hmoves

theorem sound_play :
    Sound start.bus.trees.length start.bus.scenes.length (start.play moves) (start.ledger moves) :=
  hfresh.sound.play hmoves

theorem length_owned_tree (index : Nat) (a : χ) :
    ((start.play moves).owned (.tree index) a).length =
      if fedFrom index moves = some a then 1 else 0 := by
  rw [(sound_play hfresh hmoves).length_owned, map_channel_tree]
  cases fedFrom index moves with
  | none => rfl
  | some x => simp [List.count_singleton]

theorem length_owned_scene (index : Nat) (a : χ) :
    ((start.play moves).owned (.scene index) a).length =
      (attachments index moves).countP fun t => t.Enables a := by
  rw [(sound_play hfresh hmoves).length_owned, map_channel_scene, Attachment.count_flatMap]

/-- A scene counts what it owns on all channels. -/
theorem sourceCount_play (index : Nat) :
    (start.play moves).bus.sourceCount index =
      ∑ᶠ a, ((start.play moves).owned (.scene index) a).length := by
  have h := sound_play hfresh hmoves
  have hkeys := h.follows.exact (.scene index) rfl
  simp only [h.length_owned, finsum_count]
  rw [List.length_map, ← List.length_map (f := Lease.key), ← hkeys]
  exact Bus.sourceCount_eq index _

/-- When all clients are detached, the listeners are those that subscribed directly. -/
theorem listeners_of_detached
    (hdetached : ∀ index, fedFrom index moves = none ∧ attachments index moves = []) (a : χ) :
    ((start.play moves).bus.channels a).live.map Subscription.listener =
      ((start.play (moves.filter Move.isDirect)).bus.channels a).live.map
        Subscription.listener := by
  have halone : ∀ m ∈ moves.filter Move.isDirect,
      m.Within start.bus.trees.length start.bus.scenes.length :=
    fun m hm => hmoves m (List.mem_filter.mp hm).1
  have hlisteners {ms : List (Move χ ρ)}
      (hms : ∀ m ∈ ms, m.Within start.bus.trees.length start.bus.scenes.length) :
      ((start.play ms).bus.channels a).live.map Subscription.listener =
        ((start.ledger ms).leasesOn a).map Lease.listener := by
    rw [(sound_play hfresh hms).follows.live, List.map_map]
    rfl
  have hsame : SameDirects (start.ledger moves) (start.ledger (moves.filter Move.isDirect)) :=
    SameDirects.play ⟨rfl, rfl⟩ moves
  rw [hlisteners hmoves, hlisteners halone,
    listeners_of_direct (start.isDirect_of_detached hdetached),
    listeners_of_direct (start.isDirect_of_detached (detached_filter_isDirect moves)), hsame.1]

end Fresh

/-- A frame tree owns one subscription, on the channel to which it was attached last, while it is
attached, and none otherwise. A scene owns one on each channel for every attach since it was last
detached that enabled the channel, and counts these. Whoever moves leaves what others own. When all
clients are detached, each channel has as many listeners as the direct subscribers give it, and is
heard as theirs are. -/
theorem subscriptions_owned {start : Wiring K χ ρ} (hfresh : start.IsFresh)
    {moves : List (Move χ ρ)}
    (hmoves : ∀ m ∈ moves, m.Within start.bus.trees.length start.bus.scenes.length) :
    (∀ index a, ((start.play moves).owned (.tree index) a).length =
      if fedFrom index moves = some a then 1 else 0) ∧
    (∀ index,
      (∀ a, ((start.play moves).owned (.scene index) a).length =
        (attachments index moves).countP fun t => t.Enables a) ∧
      (start.play moves).bus.sourceCount index =
        ∑ᶠ a, ((start.play moves).owned (.scene index) a).length) ∧
    (∀ m : Move χ ρ, m.Within start.bus.trees.length start.bus.scenes.length →
      ∀ c ≠ m.mover (start.play moves).directs.length, ∀ a,
        ((start.play moves).act m).owned c a = (start.play moves).owned c a) ∧
    ((∀ index, fedFrom index moves = none ∧ attachments index moves = []) → ∀ a,
      ((start.play moves).bus.channels a).count =
        ((start.play (moves.filter Move.isDirect)).bus.channels a).count ∧
      (start.play moves).bus.isHeard a =
        (start.play (moves.filter Move.isDirect)).bus.isHeard a) := by
  refine ⟨length_owned_tree hfresh hmoves, fun index => ⟨length_owned_scene hfresh hmoves index,
    sourceCount_play hfresh hmoves index⟩, ?_, ?_⟩
  · intro m hm c hc a
    exact (sound_play hfresh hmoves).owned_act hm hc a
  · intro hdetached a
    have hlisteners := congrArg List.length (listeners_of_detached hfresh hmoves hdetached a)
    rw [List.length_map, List.length_map] at hlisteners
    have hcount : ((start.play moves).bus.channels a).count =
        ((start.play (moves.filter Move.isDirect)).bus.channels a).count := hlisteners
    exact ⟨hcount, by rw [Bus.isHeard, Bus.isHeard, Channel.isHeard, Channel.isHeard, hcount]⟩

/-- One frame tree and one scene. -/
def bench : Wiring Float Address Unit where
  bus :=
    { channels := fun _ => { topic := "/viewer" }
      script := fun _ => []
      trees := [{}]
      scenes := [{}] }
  maker := fun _ handle => .direct handle

theorem isFresh_bench : bench.IsFresh where
  silent _ := rfl
  keyless c := by
    cases c with
    | tree index | scene index => cases index <;> rfl
    | direct place => rfl

/-- A frame tree moves from one viewer to another, a scene is attached to the first viewer twice,
and of two direct subscriptions to its points one is ended, twice. -/
def sharedRun : List (Move Address Unit) :=
  [.subscribe (0, .points) (.recorder ()), .attachTree 0 (0, .relations),
    .attachScene 0 ⟨.ofViewer 0, true, false, true⟩ [], .subscribe (0, .points) (.tree 0),
    .attachTree 0 (1, .relations), .attachScene 0 ⟨.ofViewer 0, true, false, false⟩ [],
    .unsubscribe 1, .unsubscribe 1]

/-- The run at whose end the clients are detached. -/
def clearedRun : List (Move Address Unit) := sharedRun ++ [.detachTree 0, .detachScene 0]

theorem subscriptions_owned_bench :
    bench.IsFresh ∧ (∀ m ∈ clearedRun, m.Within 1 1) ∧
    ((bench.play sharedRun).owned (.tree 0) (0, .relations)).length = 0 ∧
    ((bench.play sharedRun).owned (.tree 0) (1, .relations)).length = 1 ∧
    ((bench.play sharedRun).owned (.scene 0) (0, .points)).length = 2 ∧
    ((bench.play sharedRun).owned (.scene 0) (0, .pose)).length = 1 ∧
    ((bench.play clearedRun).bus.channels (0, .points)).count = 1 ∧
    (bench.play clearedRun).bus.isHeard (0, .pose) = false := by
  have hcleared : ∀ m ∈ clearedRun, m.Within 1 1 := by
    simp [clearedRun, sharedRun, Move.Within]
  have hshared : ∀ m ∈ sharedRun, m.Within 1 1 :=
    fun m hm => hcleared m (List.mem_append_left _ hm)
  obtain ⟨htree, hscene, -, -⟩ := subscriptions_owned isFresh_bench hshared
  obtain ⟨-, -, -, hdetached⟩ := subscriptions_owned isFresh_bench hcleared
  have hnone : ∀ index, fedFrom index clearedRun = none ∧ attachments index clearedRun = [] := by
    intro index
    by_cases hi : 0 = index <;>
      simp [fedFrom, fedBy, attachments, attachedBy, clearedRun, sharedRun, hi]
  refine ⟨isFresh_bench, hcleared, (htree 0 _).trans ?_, (htree 0 _).trans ?_,
    ((hscene 0).1 _).trans ?_, ((hscene 0).1 _).trans ?_, (hdetached hnone _).1.trans ?_,
    (hdetached hnone _).2.trans ?_⟩ <;> decide

end Wiring

end LiveMap
