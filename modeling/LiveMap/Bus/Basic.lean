import LiveMap.Channel.Basic
import LiveMap.FrameTree
import LiveMap.Notice
import LiveMap.Scene.Basic

/-!
# Buses

A bus carries the messages of many channels to their listeners. Listeners are recorders, which may
also subscribe and unsubscribe, frame trees, and scenes. Nothing else can be reached by a message.

## Main definitions

* `Output`, `Message`: the kinds of channels of a viewer, and what they carry.
* `Listener`, `Recorder.Act`: who listens, and what a recorder does when it is called.
* `Bus` with `Bus.subscribe`, `Bus.unsubscribe` and `Bus.publish`.
-/

namespace LiveMap

/-- The outputs of a viewer. -/
inductive Output where
  | points
  | map
  | odometry
  | pose
  | relations
  deriving DecidableEq, Repr

/-- The outputs in the order in which they are reported. -/
def Output.all : List Output := [points, map, odometry, pose, relations]

theorem Output.mem_all (o : Output) : o ∈ all := by
  cases o <;> decide

/-- What an output carries. -/
inductive Message (K : Type) where
  | cloud (m : PointCloud K)
  | odometry (m : Odometry K)
  | pose (m : StampedPose K)
  | relation (m : StampedTransform K)

/-- Who listens: a recorder, a frame tree, or the part of a scene that shows an output. -/
inductive Listener (ρ : Type) where
  | recorder (r : ρ)
  | tree (index : Nat)
  | scene (index : Nat) (part : Output)
  deriving DecidableEq, Repr

/-- One thing that a recorder does when it is called, besides recording. -/
inductive Recorder.Act (χ ρ : Type) where
  | subscribe (channel : χ) (listener : Listener ρ)
  | unsubscribe (channel : χ) (handle : Nat)
  | fail

/-- A frame tree, and the channel and handle of the subscription that feeds it. -/
structure TreeClient (K χ : Type) where
  tree : FrameTree K := {}
  source : Option (χ × Nat) := none

/-- A scene, and the channels and handles of the subscriptions that feed it, the oldest first. -/
structure SceneClient (K χ : Type) where
  scene : Scene K := {}
  sources : List (χ × Nat) := []

/-- Channels with all that listens to them, and what has come of the messages: those sent, those
recorded, the draws of all scenes, and the notices. -/
structure Bus (K χ ρ : Type) where
  channels : χ → Channel (Listener ρ)
  /-- What a recorder does when it is called. -/
  script : ρ → List (Recorder.Act χ ρ)
  trees : List (TreeClient K χ) := []
  scenes : List (SceneClient K χ) := []
  /-- Every message that was published, heard or not, with its channel. -/
  sent : List (χ × Message K) := []
  delivered : List (ρ × Message K) := []
  drawn : List (Draw K) := []
  notices : List (Notice K) := []

namespace Bus

variable {K χ ρ : Type}

instance : Noted (Bus K χ ρ) K := ⟨fun n b => { b with notices := b.notices ++ [n] }⟩

def draw (draws : List (Draw K)) (b : Bus K χ ρ) : Bus K χ ρ := { b with drawn := b.drawn ++ draws }

variable [DecidableEq χ]

def setChannel (a : χ) (c : Channel (Listener ρ)) (b : Bus K χ ρ) : Bus K χ ρ :=
  { b with channels := fun x => if x = a then c else b.channels x }

@[simp] theorem channels_setChannel_self (a : χ) (c : Channel (Listener ρ)) (b : Bus K χ ρ) :
    (b.setChannel a c).channels a = c := by
  simp [setChannel]

theorem channels_setChannel_of_ne {a x : χ} (c : Channel (Listener ρ)) (b : Bus K χ ρ)
    (h : x ≠ a) : (b.setChannel a c).channels x = b.channels x := by
  simp [setChannel, h]

/-- The place of a channel on the bus. -/
def outlet (a : χ) : Outlet (Bus K χ ρ) (Listener ρ) := ⟨fun b => b.channels a, setChannel a⟩

/-- Subscribes a listener; the handle is the number of subscriptions made before it. -/
def subscribe (a : χ) (l : Listener ρ) (b : Bus K χ ρ) : Bus K χ ρ :=
  note (.subscribed (b.channels a).topic) (b.setChannel a ((b.channels a).subscribe l))

/-- The handle that the next subscription of a channel gets. -/
def nextHandle (a : χ) (b : Bus K χ ρ) : Nat := (b.channels a).opened

def unsubscribe (a : χ) (handle : Nat) (b : Bus K χ ρ) : Bus K χ ρ :=
  b.setChannel a ((b.channels a).unsubscribe handle)

def isHeard (a : χ) (b : Bus K χ ρ) : Bool := (b.channels a).isHeard

/-! ## Messages -/

/-- What a recorder does, up to its failure, if it fails. -/
def performActs : List (Recorder.Act χ ρ) → Bus K χ ρ → Bus K χ ρ × Bool
  | [], b => (b, true)
  | .subscribe a l :: rest, b => performActs rest (b.subscribe a l)
  | .unsubscribe a h :: rest, b => performActs rest (b.unsubscribe a h)
  | .fail :: _, b => (b, false)

omit [DecidableEq χ] in
/-- A frame tree takes a relation; it fails on one that is no pose, and keeps what it has. -/
def feedTree [Scalar K] (index : Nat) (m : Message K) (b : Bus K χ ρ) : Bus K χ ρ × Bool :=
  match m, b.trees[index]? with
  | .relation t, some client =>
    match client.tree.putMessage t with
    | .ok tree => ({ b with trees := b.trees.set index { client with tree } }, true)
    | .error _ => (b, false)
  | _, _ => (b, true)

omit [DecidableEq χ] in
/-- The part of a scene draws a message; it fails on a cloud that cannot be read. -/
def feedScene [Scalar K] (index : Nat) (part : Output) (m : Message K) (b : Bus K χ ρ) :
    Bus K χ ρ × Bool :=
  match part, m, b.scenes[index]? with
  | .relations, .relation t, some client => (b.draw (client.scene.drawRelation t), true)
  | .points, .cloud c, some client =>
    let (draws, ok) := client.scene.drawScan c
    (b.draw draws, ok)
  | .map, .cloud c, some _ =>
    let (draws, ok) := Scene.drawMap c
    (b.draw draws, ok)
  | .pose, .pose p, some client =>
    let (draws, scene) := client.scene.drawPose p
    ({ b.draw draws with scenes := b.scenes.set index { client with scene } }, true)
  | _, _, _ => (b, true)

def call [Scalar K] (m : Message K) (l : Listener ρ) (b : Bus K χ ρ) : Bus K χ ρ × Bool :=
  match l with
  | .recorder r => performActs (b.script r) { b with delivered := b.delivered ++ [(r, m)] }
  | .tree index => b.feedTree index m
  | .scene index part => b.feedScene index part m

def publish [Scalar K] (a : χ) (m : Message K) (b : Bus K χ ρ) : Bus K χ ρ :=
  (outlet a).publish (call m) (fun topic => note (.listenerFailed topic))
    { b with sent := b.sent ++ [(a, m)] }

end Bus

end LiveMap
