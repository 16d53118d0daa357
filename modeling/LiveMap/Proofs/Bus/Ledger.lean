import LiveMap.Bus.Clients
import Mathlib.Logic.Function.Basic

/-!
# A ledger of live subscriptions

What a bus keeps in two places, a handle with whoever subscribed and a listener with the channel, a
ledger keeps in one: each entry says who subscribed, where, and for whom. Subscribing writes one
entry, and whoever lets go of its handles strikes out its entries. The ledger follows the bus as
long as the two sides agree: a live subscription is the entry of the one who holds its handle.

## Main definitions

* `Owner`, `Lease`, `Ledger`: the entries, with `Ledger.grant` and `Ledger.release`.
* `Bus.unsubscribeAll`, `Bus.heldBy`: letting go of handles, and the handles that everyone holds.
* `Ledger.Records`, `Ledger.Follows`: the channels and the handles are those of the ledger.

## Main statements

* `Ledger.Records.grant`, `Ledger.Records.release`: subscribing, and letting go.
* `Ledger.Follows.attachTree`, `Ledger.Follows.addSources` and so on: what clients do.
-/

namespace LiveMap

variable {K χ ρ : Type}

/-! ## Entries -/

/-- Who subscribes: a frame tree, a scene, or anyone else. Anyone else goes by the number of direct
subscriptions that were made before. -/
inductive Owner where
  | tree (index : Nat)
  | scene (index : Nat)
  | direct (place : Nat)
  deriving DecidableEq, Repr

def Owner.isDirect : Owner → Bool
  | .direct _ => true
  | .tree _ | .scene _ => false

/-- A live subscription with the one who made it. -/
structure Lease (χ ρ : Type) where
  owner : Owner
  channel : χ
  handle : Nat
  listener : Listener ρ

namespace Lease

def key (e : Lease χ ρ) : χ × Nat := (e.channel, e.handle)

def subscription (e : Lease χ ρ) : Subscription (Listener ρ) := ⟨e.handle, e.listener⟩

/-- The lease without its handle. -/
def seat (e : Lease χ ρ) : Owner × χ × Listener ρ := (e.owner, e.channel, e.listener)

end Lease

/-- All live subscriptions in the order in which they were made, how many each channel ever had, and
how many were ever made directly. -/
structure Ledger (χ ρ : Type) where
  leases : List (Lease χ ρ) := []
  opened : χ → Nat
  directs : Nat := 0

namespace Ledger

/-- The leases of one owner. -/
def leasesOf (c : Owner) (L : Ledger χ ρ) : List (Lease χ ρ) :=
  L.leases.filter fun e => e.owner = c

/-- Strikes out all leases of an owner. -/
def release (c : Owner) (L : Ledger χ ρ) : Ledger χ ρ :=
  { L with leases := L.leases.filter fun e => e.owner ≠ c }

variable [DecidableEq χ]

/-- The leases on one channel. -/
def leasesOn (a : χ) (L : Ledger χ ρ) : List (Lease χ ρ) :=
  L.leases.filter fun e => e.channel = a

/-- One more lease, under a handle that its channel never gave before. -/
def grant (c : Owner) (a : χ) (l : Listener ρ) (L : Ledger χ ρ) : Ledger χ ρ :=
  { L with
    leases := L.leases ++ [⟨c, a, L.opened a, l⟩]
    opened := Function.update L.opened a (L.opened a + 1) }

omit [DecidableEq χ] in
theorem leasesOf_release (c d : Owner) (L : Ledger χ ρ) :
    (L.release c).leasesOf d = if d = c then [] else L.leasesOf d := by
  simp only [leasesOf, release, List.filter_filter]
  split
  · next h =>
    subst h
    simp
  · next h =>
    refine List.filter_congr fun e _ => ?_
    by_cases he : e.owner = d <;> simp [he, h]

theorem leasesOf_grant (c d : Owner) (a : χ) (l : Listener ρ) (L : Ledger χ ρ) :
    (L.grant c a l).leasesOf d = L.leasesOf d ++ if d = c then [⟨c, a, L.opened a, l⟩] else [] := by
  rw [leasesOf, grant, List.filter_append, leasesOf]
  by_cases h : c = d
  · simp [h]
  · simp [h, Ne.symm h]

theorem leasesOn_grant (c : Owner) (a x : χ) (l : Listener ρ) (L : Ledger χ ρ) :
    (L.grant c a l).leasesOn x = L.leasesOn x ++ if x = a then [⟨c, a, L.opened a, l⟩] else [] := by
  rw [leasesOn, grant, List.filter_append, leasesOn]
  by_cases h : a = x
  · simp [h]
  · simp [h, Ne.symm h]

/-- Handles are never given again. -/
theorem opened_le_grant (c : Owner) (a x : χ) (l : Listener ρ) (L : Ledger χ ρ) :
    L.opened x ≤ (L.grant c a l).opened x := by
  by_cases h : x = a
  · subst h
    simp [grant]
  · simp [grant, h]

end Ledger

/-! ## Channels -/

namespace Bus

variable [DecidableEq χ]

theorem channels_subscribe (a x : χ) (l : Listener ρ) (b : Bus K χ ρ) :
    (b.subscribe a l).channels x =
      if x = a then (b.channels a).subscribe l else b.channels x := rfl

theorem channels_unsubscribe (a x : χ) (handle : Nat) (b : Bus K χ ρ) :
    (b.unsubscribe a handle).channels x =
      if x = a then (b.channels a).unsubscribe handle else b.channels x := rfl

/-- Lets go of handles, one after the other. -/
def unsubscribeAll (keys : List (χ × Nat)) (b : Bus K χ ρ) : Bus K χ ρ :=
  keys.foldl (fun b key => b.unsubscribe key.1 key.2) b

theorem nextHandle_unsubscribeAll (keys : List (χ × Nat)) (b : Bus K χ ρ) (x : χ) :
    (b.unsubscribeAll keys).nextHandle x = b.nextHandle x := by
  induction keys generalizing b with
  | nil => rfl
  | cons key rest ih =>
    refine (ih _).trans ?_
    rw [nextHandle, channels_unsubscribe]
    split
    · next h => rw [h, nextHandle, Channel.unsubscribe]
    · rfl

theorem live_unsubscribeAll (keys : List (χ × Nat)) (b : Bus K χ ρ) (x : χ) :
    ((b.unsubscribeAll keys).channels x).live =
      (b.channels x).live.filter fun s => (x, s.handle) ∉ keys := by
  induction keys generalizing b with
  | nil => exact (List.filter_eq_self.mpr fun s _ => by simp).symm
  | cons key rest ih =>
    obtain ⟨a, handle⟩ := key
    refine (ih _).trans ?_
    rw [channels_unsubscribe]
    split
    · next h =>
      subst h
      rw [Channel.live_unsubscribe, List.filter_filter]
      refine List.filter_congr fun s _ => ?_
      simp [Bool.and_comm]
    · next h =>
      refine List.filter_congr fun s _ => ?_
      simp [h]

theorem trees_unsubscribeAll (keys : List (χ × Nat)) (b : Bus K χ ρ) :
    (b.unsubscribeAll keys).trees = b.trees := by
  induction keys generalizing b with
  | nil => rfl
  | cons key rest ih => exact ih _

theorem scenes_unsubscribeAll (keys : List (χ × Nat)) (b : Bus K χ ρ) :
    (b.unsubscribeAll keys).scenes = b.scenes := by
  induction keys generalizing b with
  | nil => rfl
  | cons key rest ih => exact ih _

/-! ## Clients -/

/-- The handle that a frame tree holds. -/
def treeKeys (index : Nat) (b : Bus K χ ρ) : List (χ × Nat) :=
  ((b.trees[index]?).bind TreeClient.source).toList

/-- The handles that a scene holds. -/
def sceneKeys (index : Nat) (b : Bus K χ ρ) : List (χ × Nat) :=
  ((b.scenes[index]?).map SceneClient.sources).getD []

omit [DecidableEq χ] in
theorem sourceCount_eq (index : Nat) (b : Bus K χ ρ) :
    b.sourceCount index = (b.sceneKeys index).length := by
  unfold sourceCount sceneKeys
  cases b.scenes[index]? <;> rfl

theorem channels_detachTree (index : Nat) (b : Bus K χ ρ) :
    (b.detachTree index).channels = (b.unsubscribeAll (b.treeKeys index)).channels := by
  unfold detachTree treeKeys
  split
  · next h => rw [h]; rfl
  · next h => rw [h]; rfl

theorem length_trees_detachTree (index : Nat) (b : Bus K χ ρ) :
    (b.detachTree index).trees.length = b.trees.length := by
  unfold detachTree
  split
  · rfl
  · exact List.length_modify _ _ _

theorem scenes_detachTree (index : Nat) (b : Bus K χ ρ) :
    (b.detachTree index).scenes = b.scenes := by
  unfold detachTree
  split <;> rfl

theorem trees_addSources (index : Nat) (address : Output → χ) (parts : List Output)
    (b : Bus K χ ρ) : (b.addSources index address parts).trees = b.trees := by
  induction parts generalizing b with
  | nil => rfl
  | cons part rest ih => exact ih _

theorem length_scenes_addSources (index : Nat) (address : Output → χ) (parts : List Output)
    (b : Bus K χ ρ) : (b.addSources index address parts).scenes.length = b.scenes.length := by
  induction parts generalizing b with
  | nil => rfl
  | cons part rest ih => exact (ih _).trans (List.length_modify _ _ _)

theorem channels_detachScene (index : Nat) (b : Bus K χ ρ) :
    (b.detachScene index).channels = (b.unsubscribeAll (b.sceneKeys index)).channels := rfl

end Bus

/-! ## Agreement -/

namespace Ledger

variable [DecidableEq χ]

/-- The two sides of a bus agree with a ledger: the live subscriptions are the leases, and the keys
that anyone holds are of leases of its own, or of nothing any longer. Frame trees and scenes hold no
keys but those of their leases. -/
structure Records (L : Ledger χ ρ) (channels : χ → Channel (Listener ρ))
    (keys : Owner → List (χ × Nat)) : Prop where
  live : ∀ a, (channels a).live = (L.leasesOn a).map Lease.subscription
  opened : ∀ a, (channels a).opened = L.opened a
  issued : ∀ c, ∀ key ∈ keys c, key.2 < L.opened key.1
  held : ∀ e ∈ L.leases, ∀ c, e.key ∈ keys c ↔ e.owner = c
  exact : ∀ c, c.isDirect = false → keys c = (L.leasesOf c).map Lease.key

namespace Records

variable {L : Ledger χ ρ} {channels : χ → Channel (Listener ρ)} {keys : Owner → List (χ × Nat)}

theorem handle_lt (h : L.Records channels keys) {e : Lease χ ρ} (he : e ∈ L.leases) :
    e.handle < L.opened e.channel :=
  h.issued e.owner e.key ((h.held e he e.owner).mpr rfl)

/-- Whoever subscribes holds one more key, and that is no key of anyone before. -/
theorem grant {b : Bus K χ ρ} (h : L.Records b.channels keys) (c : Owner) (a : χ)
    (l : Listener ρ) : (L.grant c a l).Records (b.subscribe a l).channels
      (Function.update keys c (keys c ++ [(a, b.nextHandle a)])) := by
  have hnext : b.nextHandle a = L.opened a := h.opened a
  have hfresh : ∀ d, (a, L.opened a) ∉ keys d := fun d hd => Nat.lt_irrefl _ (h.issued d _ hd)
  rw [hnext]
  refine ⟨fun x => ?_, fun x => ?_, fun d key hkey => ?_, fun e he d => ?_, fun d hd => ?_⟩
  · rw [Bus.channels_subscribe, leasesOn_grant]
    split
    · next hx =>
      subst hx
      rw [Channel.live_subscribe, h.live, h.opened, List.map_append]
      rfl
    · rw [h.live, List.append_nil]
  · rw [Bus.channels_subscribe]
    split
    · next hx =>
      subst hx
      simp [Channel.subscribe, Ledger.grant, h.opened]
    · next hx => simp [Ledger.grant, h.opened, hx]
  · have hkey : key ∈ keys d ∨ key = (a, L.opened a) := by
      by_cases hdc : d = c
      · subst hdc
        simpa using hkey
      · rw [Function.update_of_ne hdc] at hkey
        exact .inl hkey
    rcases hkey with hkey | rfl
    · exact Nat.lt_of_lt_of_le (h.issued d key hkey) (opened_le_grant c a _ l L)
    · simp [Ledger.grant]
  · -- An old lease does not have the new key, and nobody else has the key of the new one.
    rw [Ledger.grant, List.mem_append, List.mem_singleton] at he
    rcases he with he | rfl
    · have hheld : e.key ∈ keys e.owner := (h.held e he _).mpr rfl
      have hne : e.key ≠ (a, L.opened a) := fun heq => hfresh e.owner (heq ▸ hheld)
      by_cases hdc : d = c
      · subst hdc
        simp [hne, h.held e he]
      · rw [Function.update_of_ne hdc, h.held e he]
    · by_cases hdc : d = c
      · subst hdc
        simp [Lease.key]
      · rw [Function.update_of_ne hdc]
        exact iff_of_false (hfresh d) (Ne.symm hdc)
  · rw [leasesOf_grant]
    by_cases hdc : d = c
    · subst hdc
      simp [Lease.key, h.exact d hd]
    · rw [Function.update_of_ne hdc, h.exact d hd, if_neg hdc, List.append_nil]

/-- Whoever lets go of its keys has no lease any longer, and nobody else loses one. Only frame trees
and scenes forget the keys that they let go of. -/
theorem release {b : Bus K χ ρ} (h : L.Records b.channels keys) (c : Owner) {rest : List (χ × Nat)}
    (hrest : rest ⊆ keys c) (hclient : c.isDirect = false → rest = []) :
    (L.release c).Records (b.unsubscribeAll (keys c)).channels (Function.update keys c rest) := by
  refine ⟨fun x => ?_, fun x => ?_, fun d key hkey => ?_, fun e he d => ?_, fun d hd => ?_⟩
  · rw [Bus.live_unsubscribeAll, h.live, leasesOn, leasesOn, Ledger.release, List.filter_map,
      List.filter_filter, List.filter_filter]
    congr 1
    refine List.filter_congr fun e he => ?_
    by_cases hx : e.channel = x
    · subst hx
      have hheld := h.held e he c
      simp only [Lease.key] at hheld
      simp [Lease.subscription, hheld]
    · simp [hx]
  · exact (Bus.nextHandle_unsubscribeAll (keys c) b x).trans (h.opened x)
  · by_cases hdc : d = c
    · subst hdc
      rw [Function.update_self] at hkey
      exact h.issued d key (hrest hkey)
    · rw [Function.update_of_ne hdc] at hkey
      exact h.issued d key hkey
  · obtain ⟨hold, hne⟩ := List.mem_filter.mp he
    by_cases hdc : d = c
    · subst hdc
      have howner : e.owner ≠ d := by simpa using hne
      rw [Function.update_self]
      exact iff_of_false (fun hkey => howner ((h.held e hold d).mp (hrest hkey))) howner
    · rw [Function.update_of_ne hdc]
      exact h.held e hold d
  · rw [leasesOf_release]
    by_cases hdc : d = c
    · subst hdc
      rw [Function.update_self, hclient hd, if_pos rfl]
      rfl
    · rw [Function.update_of_ne hdc, h.exact d hd, if_neg hdc]

end Records

end Ledger

/-! ## The handles that are held -/

namespace Bus

/-- The handles that everyone holds. Those of direct subscriptions are in the order in which they
were given out, and are held for good. -/
def heldBy (directs : List (χ × Nat)) (b : Bus K χ ρ) : Owner → List (χ × Nat)
  | .tree index => b.treeKeys index
  | .scene index => b.sceneKeys index
  | .direct place => (directs[place]?).toList

variable (directs : List (χ × Nat))

theorem heldBy_concat (a : χ) (handle : Nat) (b : Bus K χ ρ) :
    b.heldBy (directs ++ [(a, handle)]) =
      Function.update (b.heldBy directs) (.direct directs.length) [(a, handle)] := by
  refine Function.eq_update_iff.mpr ⟨by simp [heldBy], fun c hc => ?_⟩
  cases c with
  | tree j | scene j => rfl
  | direct place =>
    have hplace : place ≠ directs.length := fun h => hc (h ▸ rfl)
    simp only [heldBy, List.getElem?_append]
    split
    · rfl
    · rw [List.getElem?_eq_none (by simp; omega), List.getElem?_eq_none (by omega)]

theorem heldBy_setTreeSource {index : Nat} {b : Bus K χ ρ} (hi : index < b.trees.length)
    (source : Option (χ × Nat)) : (b.setTreeSource index source).heldBy directs =
      Function.update (b.heldBy directs) (.tree index) source.toList := by
  refine Function.eq_update_iff.mpr ⟨by simp [heldBy, treeKeys, setTreeSource, hi], fun c hc => ?_⟩
  cases c with
  | tree j =>
    have hj : index ≠ j := fun h => hc (h ▸ rfl)
    simp [heldBy, treeKeys, setTreeSource, hj]
  | scene j | direct place => rfl

/-- What a scene holds when something is done to one scene. -/
theorem sceneKeys_modify (index j : Nat) (f : SceneClient K χ → SceneClient K χ) (b : Bus K χ ρ) :
    ({ b with scenes := b.scenes.modify index f } : Bus K χ ρ).sceneKeys j =
      if index = j then ((b.scenes[j]?).map fun client => (f client).sources).getD []
      else b.sceneKeys j := by
  rw [sceneKeys, List.getElem?_modify]
  split <;> simp [sceneKeys, Function.comp_def]

theorem heldBy_modifyScene (index : Nat) (f : SceneClient K χ → SceneClient K χ) (b : Bus K χ ρ) :
    ({ b with scenes := b.scenes.modify index f } : Bus K χ ρ).heldBy directs =
      Function.update (b.heldBy directs) (.scene index)
        (((b.scenes[index]?).map fun client => (f client).sources).getD []) := by
  refine Function.eq_update_iff.mpr ⟨?_, fun c hc => ?_⟩
  · exact (sceneKeys_modify index index f b).trans (if_pos rfl)
  · cases c with
    | tree j | direct place => rfl
    | scene j =>
      have hj : index ≠ j := fun h => hc (h ▸ rfl)
      exact (sceneKeys_modify index j f b).trans (if_neg hj)

theorem heldBy_setPaths (index : Nat) (paths : List (String × String)) (b : Bus K χ ρ) :
    (b.setPaths index paths).heldBy directs = b.heldBy directs :=
  (heldBy_modifyScene directs index _ b).trans (Function.update_eq_self (Owner.scene index) _)

variable [DecidableEq χ]

theorem heldBy_unsubscribeAll (keys : List (χ × Nat)) (b : Bus K χ ρ) :
    (b.unsubscribeAll keys).heldBy directs = b.heldBy directs := by
  funext c
  cases c with
  | tree j => rw [heldBy, heldBy, treeKeys, treeKeys, trees_unsubscribeAll]
  | scene j => rw [heldBy, heldBy, sceneKeys, sceneKeys, scenes_unsubscribeAll]
  | direct place => rfl

theorem heldBy_detachTree (index : Nat) (b : Bus K χ ρ) :
    (b.detachTree index).heldBy directs = Function.update (b.heldBy directs) (.tree index) [] := by
  unfold detachTree
  split
  · next h =>
    have hnone : b.heldBy directs (.tree index) = [] := by rw [heldBy, treeKeys, h]; rfl
    rw [← hnone, Function.update_eq_self]
  · next a handle h =>
    obtain ⟨client, hclient, -⟩ := Option.bind_eq_some_iff.mp h
    have hi : index < b.trees.length := (List.getElem?_eq_some_iff.mp hclient).1
    exact heldBy_setTreeSource directs (b := b.unsubscribe a handle) hi none

theorem heldBy_attachTree {index : Nat} {b : Bus K χ ρ} (hi : index < b.trees.length) (a : χ) :
    (b.attachTree index a).heldBy directs =
      Function.update ((b.detachTree index).heldBy directs) (.tree index)
        ((b.detachTree index).heldBy directs (.tree index) ++
          [(a, (b.detachTree index).nextHandle a)]) := by
  have hi' : index < (b.detachTree index).trees.length := by rwa [length_trees_detachTree]
  have hnone : (b.detachTree index).heldBy directs (.tree index) = [] := by
    rw [heldBy_detachTree, Function.update_self]
  rw [hnone]
  exact heldBy_setTreeSource directs (b := (b.detachTree index).subscribe a (.tree index)) hi' _

theorem heldBy_addSource {index : Nat} {b : Bus K χ ρ} (hi : index < b.scenes.length)
    (part : Output) (a : χ) : (b.addSource index part a).heldBy directs =
      Function.update (b.heldBy directs) (.scene index)
        (b.heldBy directs (.scene index) ++ [(a, b.nextHandle a)]) := by
  refine (heldBy_modifyScene directs index _ (b.subscribe a (.scene index part))).trans ?_
  have hclient : b.scenes[index]? = some b.scenes[index] := List.getElem?_eq_getElem hi
  have hheld : b.heldBy directs (.scene index) = b.scenes[index].sources := by
    rw [heldBy, sceneKeys, hclient]
    rfl
  rw [hheld, show (b.subscribe a (.scene index part)).scenes = b.scenes from rfl, hclient]
  rfl

theorem heldBy_detachScene (index : Nat) (b : Bus K χ ρ) :
    (b.detachScene index).heldBy directs =
      Function.update (b.heldBy directs) (.scene index) [] := by
  refine (heldBy_modifyScene directs index _ (b.unsubscribeAll (b.sceneKeys index))).trans ?_
  rw [heldBy_unsubscribeAll]
  cases (b.unsubscribeAll (b.sceneKeys index)).scenes[index]? <;> rfl

end Bus

/-! ## What clients do -/

namespace Ledger

variable [DecidableEq χ]

/-- A bus agrees with a ledger, given the handles of direct subscriptions. -/
def Follows (L : Ledger χ ρ) (directs : List (χ × Nat)) (b : Bus K χ ρ) : Prop :=
  L.Records b.channels (b.heldBy directs)

/-- A scene subscribes to the channels of parts. -/
def grantParts (index : Nat) (address : Output → χ) (parts : List Output) (L : Ledger χ ρ) :
    Ledger χ ρ :=
  parts.foldl (fun L part => L.grant (.scene index) (address part) (.scene index part)) L

theorem directs_grantParts (index : Nat) (address : Output → χ) (parts : List Output)
    (L : Ledger χ ρ) : (L.grantParts index address parts).directs = L.directs := by
  induction parts generalizing L with
  | nil => rfl
  | cons part rest ih => exact ih _

namespace Follows

variable {L : Ledger χ ρ} {directs : List (χ × Nat)} {b : Bus K χ ρ}

theorem detachTree (h : L.Follows directs b) (index : Nat) :
    (L.release (.tree index)).Follows directs (b.detachTree index) := by
  rw [Follows, Bus.heldBy_detachTree, Bus.channels_detachTree]
  exact Records.release h (.tree index) (List.nil_subset _) fun _ => rfl

theorem attachTree (h : L.Follows directs b) {index : Nat} (hi : index < b.trees.length) (a : χ) :
    ((L.release (.tree index)).grant (.tree index) a (.tree index)).Follows directs
      (b.attachTree index a) := by
  rw [Follows, Bus.heldBy_attachTree directs hi]
  exact Records.grant (h.detachTree index) (.tree index) a (.tree index)

theorem setPaths (h : L.Follows directs b) (index : Nat) (paths : List (String × String)) :
    L.Follows directs (b.setPaths index paths) := by
  rw [Follows, Bus.heldBy_setPaths]
  exact h

theorem addSource (h : L.Follows directs b) {index : Nat} (hi : index < b.scenes.length)
    (part : Output) (a : χ) :
    (L.grant (.scene index) a (.scene index part)).Follows directs (b.addSource index part a) := by
  rw [Follows, Bus.heldBy_addSource directs hi]
  exact Records.grant h (.scene index) a (.scene index part)

theorem addSources (h : L.Follows directs b) {index : Nat} (hi : index < b.scenes.length)
    (address : Output → χ) (parts : List Output) :
    (L.grantParts index address parts).Follows directs (b.addSources index address parts) := by
  induction parts generalizing L b with
  | nil => exact h
  | cons part rest ih =>
    refine ih (h.addSource hi part (address part)) ?_
    exact Nat.lt_of_lt_of_eq hi (List.length_modify _ _ _).symm

theorem detachScene (h : L.Follows directs b) (index : Nat) :
    (L.release (.scene index)).Follows directs (b.detachScene index) := by
  rw [Follows, Bus.heldBy_detachScene, Bus.channels_detachScene]
  exact Records.release h (.scene index) (List.nil_subset _) fun _ => rfl

theorem subscribe (h : L.Follows directs b) (a : χ) (l : Listener ρ) :
    (L.grant (.direct directs.length) a l).Follows (directs ++ [(a, b.nextHandle a)])
      (b.subscribe a l) := by
  have hnone : b.heldBy directs (.direct directs.length) = [] := by simp [Bus.heldBy]
  have hgrant := Records.grant h (.direct directs.length) a l
  rw [hnone] at hgrant
  rw [Follows, Bus.heldBy_concat]
  exact hgrant

/-- A direct subscription can be ended again, for its handle is held for good. -/
theorem unsubscribe (h : L.Follows directs b) (place : Nat) :
    (L.release (.direct place)).Follows directs (b.unsubscribeAll (directs[place]?).toList) := by
  have hrelease := Records.release h (.direct place) (List.Subset.refl _)
    fun hclient => by cases hclient
  rw [Function.update_eq_self] at hrelease
  rw [Follows, Bus.heldBy_unsubscribeAll]
  exact hrelease

end Follows

end Ledger

end LiveMap
