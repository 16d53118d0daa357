import LiveMap.Proofs.Bus.Ledger
import LiveMap.Session.Pipeline

/-!
# Runs of attaches and subscriptions

Frame trees and scenes are attached and detached again, to any channels and any number of times,
while others subscribe and unsubscribe directly. A subscription belongs to whoever made it. A ledger
is kept by the moves alone, in which whoever attaches, subscribes or lets go writes about itself
only; it accounts for the bus after every move.

## Main definitions

* `Outputs`, `Attachment`: what a scene is attached to.
* `Wiring` with `Wiring.act` and `Wiring.play`: a bus with the handles of direct subscriptions.
* `Wiring.owned`: the live subscriptions that someone made on a channel.
* `Ledger.step`: what a move writes into a ledger.
* `Ledger.Changes`: nothing but the leases of one owner changes.
* `Wiring.Sound`: a ledger accounts for all that is live.

## Main statements

* `Wiring.Sound.act`, `Wiring.Sound.play`: the ledger of the moves accounts for the bus.
* `Wiring.Sound.owned_act`: a move leaves what others own.
-/

namespace LiveMap

variable {K χ ρ : Type}

/-! ## Attachments -/

/-- The outputs of a viewer as channels of a bus, no two of them the same. -/
structure Outputs (χ : Type) where
  channel : Output → χ
  injective : channel.Injective

def Outputs.ofViewer (id : Nat) : Outputs Address :=
  ⟨fun o => (id, o), fun _ _ h => (Prod.mk.inj h).2⟩

/-- The outputs to which a scene is attached, and what it shows of them beside the relations. -/
structure Attachment (χ : Type) where
  outputs : Outputs χ
  points : Bool
  map : Bool
  pose : Bool

namespace Attachment

def parts (t : Attachment χ) : List Output := Bus.sceneParts t.points t.map t.pose

end Attachment

/-! ## Moves -/

/-- A bus, and the handles that were given out for direct subscriptions. Beside the program stands
who made which subscription; nothing that happens depends on it. -/
structure Wiring (K χ ρ : Type) where
  bus : Bus K χ ρ
  directs : List (χ × Nat) := []
  maker : χ → Nat → Owner

/-- What can happen. A direct subscription goes by the number of those before it, and it may be
ended more than once. -/
inductive Wiring.Move (χ ρ : Type) where
  | attachTree (index : Nat) (a : χ)
  | detachTree (index : Nat)
  | attachScene (index : Nat) (attachment : Attachment χ) (paths : List (String × String))
  | detachScene (index : Nat)
  | subscribe (a : χ) (listener : Listener ρ)
  | unsubscribe (place : Nat)

namespace Wiring

/-- Who moves, after a number of direct subscriptions. -/
def Move.mover (directs : Nat) : Move χ ρ → Owner
  | .attachTree index _ | .detachTree index => .tree index
  | .attachScene index _ _ | .detachScene index => .scene index
  | .subscribe _ _ => .direct directs
  | .unsubscribe place => .direct place

def Move.isDirect : Move χ ρ → Bool
  | .subscribe _ _ | .unsubscribe _ => true
  | .attachTree _ _ | .detachTree _ | .attachScene _ _ _ | .detachScene _ => false

/-- The client that is moved is one of so many frame trees, or of so many scenes. -/
def Move.Within (trees scenes : Nat) : Move χ ρ → Prop
  | .attachTree index _ | .detachTree index => index < trees
  | .attachScene index _ _ | .detachScene index => index < scenes
  | .subscribe _ _ | .unsubscribe _ => True

/-- The handles that everyone holds. -/
def keys (w : Wiring K χ ρ) : Owner → List (χ × Nat) := w.bus.heldBy w.directs

/-- The live subscriptions on a channel that someone made. -/
def owned (c : Owner) (a : χ) (w : Wiring K χ ρ) : List (Subscription (Listener ρ)) :=
  (w.bus.channels a).live.filter fun s => w.maker a s.handle = c

variable [DecidableEq χ]

def perform (w : Wiring K χ ρ) : Move χ ρ → Wiring K χ ρ
  | .attachTree index a => { w with bus := w.bus.attachTree index a }
  | .detachTree index => { w with bus := w.bus.detachTree index }
  | .attachScene index t paths =>
    { w with bus := (w.bus.setPaths index paths).addSources index t.outputs.channel t.parts }
  | .detachScene index => { w with bus := w.bus.detachScene index }
  | .subscribe a l =>
    { w with bus := w.bus.subscribe a l, directs := w.directs ++ [(a, w.bus.nextHandle a)] }
  | .unsubscribe place => { w with bus := w.bus.unsubscribeAll (w.directs[place]?).toList }

/-- Something happens. The handles that are given out meanwhile are of the one who moves. -/
def act (w : Wiring K χ ρ) (m : Move χ ρ) : Wiring K χ ρ :=
  { w.perform m with
    maker := fun a handle =>
      if handle < w.bus.nextHandle a then w.maker a handle else m.mover w.directs.length }

def play (moves : List (Move χ ρ)) (w : Wiring K χ ρ) : Wiring K χ ρ := moves.foldl act w

end Wiring

/-! ## The ledger of a run -/

namespace Ledger

open Wiring

variable [DecidableEq χ]

/-- What a move writes into the ledger. -/
def step (L : Ledger χ ρ) : Wiring.Move χ ρ → Ledger χ ρ
  | .attachTree index a => (L.release (.tree index)).grant (.tree index) a (.tree index)
  | .detachTree index => L.release (.tree index)
  | .attachScene index t _ => L.grantParts index t.outputs.channel t.parts
  | .detachScene index => L.release (.scene index)
  | .subscribe a l => { L.grant (.direct L.directs) a l with directs := L.directs + 1 }
  | .unsubscribe place => L.release (.direct place)

/-- Nothing but the leases of one owner changes from a ledger to a later one, and the handles of new
leases were never given before. -/
structure Changes (c : Owner) (L M : Ledger χ ρ) : Prop where
  others : ∀ d ≠ c, M.leasesOf d = L.leasesOf d
  fresh : ∀ e ∈ M.leases, e ∈ L.leases ∨ (e.owner = c ∧ L.opened e.channel ≤ e.handle)
  opened : ∀ a, L.opened a ≤ M.opened a

namespace Changes

variable {c : Owner} {L M N : Ledger χ ρ}

omit [DecidableEq χ] in
theorem refl (c : Owner) (L : Ledger χ ρ) : Changes c L L :=
  ⟨fun _ _ => rfl, fun _ he => .inl he, fun _ => Nat.le_refl _⟩

omit [DecidableEq χ] in
theorem trans (h : Changes c L M) (g : Changes c M N) : Changes c L N where
  others d hd := (g.others d hd).trans (h.others d hd)
  fresh e he := by
    rcases g.fresh e he with he | ⟨howner, hhandle⟩
    · exact h.fresh e he
    · exact .inr ⟨howner, Nat.le_trans (h.opened _) hhandle⟩
  opened a := Nat.le_trans (h.opened a) (g.opened a)

omit [DecidableEq χ] in
theorem release (c : Owner) (L : Ledger χ ρ) : Changes c L (L.release c) where
  others d hd := by rw [leasesOf_release, if_neg hd]
  fresh _ he := .inl (List.mem_filter.mp he).1
  opened _ := Nat.le_refl _

theorem grant (c : Owner) (a : χ) (l : Listener ρ) (L : Ledger χ ρ) :
    Changes c L (L.grant c a l) where
  others d hd := by rw [leasesOf_grant, if_neg hd, List.append_nil]
  fresh e he := by
    rcases List.mem_append.mp he with he | he
    · exact .inl he
    · obtain rfl := List.mem_singleton.mp he
      exact .inr ⟨rfl, Nat.le_refl _⟩
  opened x := opened_le_grant c a x l L

theorem grantParts (index : Nat) (address : Output → χ) (parts : List Output) (L : Ledger χ ρ) :
    Changes (.scene index) L (L.grantParts index address parts) := by
  induction parts generalizing L with
  | nil => exact refl _ L
  | cons part rest ih => exact (grant _ _ _ L).trans (ih _)

theorem step (m : Wiring.Move χ ρ) (L : Ledger χ ρ) : Changes (m.mover L.directs) L (L.step m) := by
  cases m with
  | attachTree index a => exact (release _ L).trans (grant _ _ _ _)
  | detachTree index => exact release _ L
  | attachScene index t paths => exact grantParts index _ _ L
  | detachScene index => exact release _ L
  | subscribe a l =>
    have h := grant (.direct L.directs) a l L
    exact ⟨h.others, h.fresh, h.opened⟩
  | unsubscribe place => exact release _ L

end Changes

theorem leasesOf_step (m : Wiring.Move χ ρ) (L : Ledger χ ρ) {c : Owner}
    (h : c ≠ m.mover L.directs) : (L.step m).leasesOf c = L.leasesOf c :=
  (Changes.step m L).others c h

end Ledger

/-! ## The bus of a run -/

namespace Wiring

open Ledger

variable [DecidableEq χ]

/-- A ledger accounts for all that is live, and says rightly who made it. The clients are so many
frame trees and scenes. -/
structure Sound (trees scenes : Nat) (w : Wiring K χ ρ) (L : Ledger χ ρ) : Prop where
  follows : L.Follows w.directs w.bus
  maker : ∀ e ∈ L.leases, w.maker e.channel e.handle = e.owner
  directs : w.directs.length = L.directs
  trees : w.bus.trees.length = trees
  scenes : w.bus.scenes.length = scenes

/-- A session attaches a scene to the outputs of a viewer. -/
theorem perform_attachScene {s : Session K ρ} {id : Nat} {member : Member K}
    (h : s.members[id]? = some member) (w : Wiring K Address ρ) (hw : w.bus = s.bus) (index : Nat)
    (points map pose : Bool) :
    (w.perform (.attachScene index ⟨.ofViewer id, points, map, pose⟩
      member.viewer.settings.paths)).bus =
      (s.attachScene index id (Bus.sceneParts points map pose)).bus := by
  rw [Session.attachScene, h, perform, hw]
  rfl

theorem length_trees_perform (w : Wiring K χ ρ) (m : Move χ ρ) :
    (w.perform m).bus.trees.length = w.bus.trees.length := by
  cases m with
  | attachTree index a =>
    exact (List.length_modify _ _ _).trans (Bus.length_trees_detachTree index w.bus)
  | detachTree index => exact Bus.length_trees_detachTree index w.bus
  | attachScene index t paths => exact congrArg List.length (Bus.trees_addSources ..)
  | detachScene index => exact congrArg List.length (Bus.trees_unsubscribeAll _ w.bus)
  | subscribe a l => rfl
  | unsubscribe place => exact congrArg List.length (Bus.trees_unsubscribeAll _ w.bus)

theorem length_scenes_perform (w : Wiring K χ ρ) (m : Move χ ρ) :
    (w.perform m).bus.scenes.length = w.bus.scenes.length := by
  cases m with
  | attachTree index a => exact congrArg List.length (Bus.scenes_detachTree index w.bus)
  | detachTree index => exact congrArg List.length (Bus.scenes_detachTree index w.bus)
  | attachScene index t paths =>
    exact (Bus.length_scenes_addSources ..).trans (List.length_modify _ _ _)
  | detachScene index =>
    refine (List.length_modify _ _ _).trans ?_
    exact congrArg List.length (Bus.scenes_unsubscribeAll _ w.bus)
  | subscribe a l => rfl
  | unsubscribe place => exact congrArg List.length (Bus.scenes_unsubscribeAll _ w.bus)

namespace Sound

variable {trees scenes : Nat} {w : Wiring K χ ρ} {L : Ledger χ ρ}

/-- What a move does to the bus is what it writes into the ledger. -/
theorem follows_perform (h : Sound trees scenes w L) {m : Move χ ρ} (hm : m.Within trees scenes) :
    (L.step m).Follows (w.perform m).directs (w.perform m).bus := by
  cases m with
  | attachTree index a => exact h.follows.attachTree (h.trees ▸ hm) a
  | detachTree index => exact h.follows.detachTree index
  | attachScene index t paths =>
    refine (h.follows.setPaths index paths).addSources ?_ t.outputs.channel t.parts
    rw [Bus.setPaths, List.length_modify, h.scenes]
    exact hm
  | detachScene index => exact h.follows.detachScene index
  | subscribe a l =>
    have hgrant := h.follows.subscribe a l
    rw [h.directs] at hgrant
    exact ⟨hgrant.live, hgrant.opened, hgrant.issued, hgrant.held, hgrant.exact⟩
  | unsubscribe place => exact h.follows.unsubscribe place

theorem act (h : Sound trees scenes w L) {m : Move χ ρ} (hm : m.Within trees scenes) :
    Sound trees scenes (w.act m) (L.step m) where
  follows := h.follows_perform hm
  maker e he := by
    have hnext : w.bus.nextHandle e.channel = L.opened e.channel := h.follows.opened _
    simp only [Wiring.act, hnext]
    rcases (Changes.step m L).fresh e he with hold | ⟨howner, hhandle⟩
    · rw [if_pos (h.follows.handle_lt hold), h.maker e hold]
    · rw [if_neg (Nat.not_lt.mpr hhandle), h.directs, howner]
  directs := by
    cases m with
    | subscribe a l => simp [Wiring.act, perform, step, h.directs]
    | attachScene index t paths => exact h.directs.trans (directs_grantParts index _ _ L).symm
    | attachTree | detachTree | detachScene | unsubscribe => exact h.directs
  trees := (w.length_trees_perform m).trans h.trees
  scenes := (w.length_scenes_perform m).trans h.scenes

theorem play (h : Sound trees scenes w L) {moves : List (Move χ ρ)}
    (hmoves : ∀ m ∈ moves, m.Within trees scenes) :
    Sound trees scenes (w.play moves) (moves.foldl step L) :=
  List.foldl_rel h fun m hm _ _ h' => h'.act (hmoves m hm)

/-- What someone owns on a channel are its leases there. -/
theorem owned_eq (h : Sound trees scenes w L) (c : Owner) (a : χ) :
    w.owned c a = ((L.leasesOf c).filter fun e => e.channel = a).map Lease.subscription := by
  rw [owned, h.follows.live, leasesOn, leasesOf, List.filter_map, List.filter_filter,
    List.filter_filter]
  congr 1
  refine List.filter_congr fun e he => ?_
  by_cases ha : e.channel = a
  · subst ha
    simp [Lease.subscription, h.maker e he]
  · simp [ha]

theorem length_owned (h : Sound trees scenes w L) (c : Owner) (a : χ) :
    (w.owned c a).length = ((L.leasesOf c).map Lease.channel).count a := by
  rw [h.owned_eq, List.length_map, List.count, List.countP_map, List.countP_eq_length_filter]
  congr 1

/-- A move leaves what others own. -/
theorem owned_act (h : Sound trees scenes w L) {m : Move χ ρ} (hm : m.Within trees scenes)
    {c : Owner} (hc : c ≠ m.mover w.directs.length) (a : χ) :
    (w.act m).owned c a = w.owned c a := by
  rw [h.directs] at hc
  rw [(h.act hm).owned_eq, h.owned_eq, leasesOf_step m L hc]

end Sound

end Wiring

end LiveMap
