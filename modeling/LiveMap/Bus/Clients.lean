import LiveMap.Bus.Basic

/-!
# Clients of a bus

A frame tree listens to one channel at most; a scene listens to any number, and lets go of all of
them at once.

## Main definitions

* `Bus.attachTree`, `Bus.detachTree`: the channel that feeds a frame tree.
* `Bus.attachScene`, `Bus.detachScene`: the channels that feed a scene.
-/

namespace LiveMap.Bus

variable {K χ ρ : Type} [DecidableEq χ]

/-! ## Frame trees -/

/-- The frame tree at a place, empty if there is none. -/
def treeAt (index : Nat) (b : Bus K χ ρ) : FrameTree K :=
  ((b.trees[index]?).map TreeClient.tree).getD {}

def setTreeSource (index : Nat) (source : Option (χ × Nat)) (b : Bus K χ ρ) : Bus K χ ρ :=
  { b with trees := b.trees.modify index fun client => { client with source } }

def detachTree (index : Nat) (b : Bus K χ ρ) : Bus K χ ρ :=
  match (b.trees[index]?).bind TreeClient.source with
  | none => b
  | some (a, handle) => (b.unsubscribe a handle).setTreeSource index none

/-- Feeds a frame tree from a channel, and from no other any longer. -/
def attachTree (index : Nat) (a : χ) (b : Bus K χ ρ) : Bus K χ ρ :=
  let detached := b.detachTree index
  (detached.subscribe a (.tree index)).setTreeSource index (some (a, detached.nextHandle a))

/-- Puts a relation into a frame tree without a channel. -/
def putRelation [Scalar K] (index : Nat) (m : StampedTransform K) (b : Bus K χ ρ) :
    Except PoseError (Bus K χ ρ) := do
  let tree ← (b.treeAt index).putMessage m
  return { b with trees := b.trees.modify index fun client => { client with tree } }

/-! ## Scenes -/

def sceneAt? (index : Nat) (b : Bus K χ ρ) : Option (Scene K) :=
  (b.scenes[index]?).map SceneClient.scene

/-- The number of subscriptions that feed a scene. -/
def sourceCount (index : Nat) (b : Bus K χ ρ) : Nat :=
  ((b.scenes[index]?).map fun client => client.sources.length).getD 0

/-- Opens a scene behind all others. -/
def openScene (application : String) (shown : Bool) (limit : Int) (b : Bus K χ ρ) : Bus K χ ρ :=
  { b.draw (Scene.opening application shown) with
    scenes := b.scenes ++ [{ scene := { limit } }] }

/-- Feeds one part of a scene from a channel. -/
def addSource (index : Nat) (part : Output) (a : χ) (b : Bus K χ ρ) : Bus K χ ρ :=
  let subscribed := b.subscribe a (.scene index part)
  let add (client : SceneClient K χ) : SceneClient K χ :=
    { client with sources := client.sources ++ [(a, b.nextHandle a)] }
  { subscribed with scenes := subscribed.scenes.modify index add }

/-- Replaces the entities of the frames that a scene knows. -/
def setPaths (index : Nat) (paths : List (String × String)) (b : Bus K χ ρ) : Bus K χ ρ :=
  let set (client : SceneClient K χ) : SceneClient K χ :=
    { client with scene := { client.scene with paths } }
  { b with scenes := b.scenes.modify index set }

/-- Feeds parts of a scene, each from the channel that `address` names, in order. -/
def addSources (index : Nat) (address : Output → χ) (parts : List Output) (b : Bus K χ ρ) :
    Bus K χ ρ :=
  parts.foldl (fun b part => b.addSource index part (address part)) b

/-- The parts that a scene shows: relations at all times, the others when they are wanted. -/
def sceneParts (points map pose : Bool) : List Output :=
  [.relations] ++ (if points then [.points] else []) ++ (if map then [.map] else [])
    ++ (if pose then [.pose] else [])

def detachScene (index : Nat) (b : Bus K χ ρ) : Bus K χ ρ :=
  let sources := ((b.scenes[index]?).map SceneClient.sources).getD []
  let silent := sources.foldl (fun b s => b.unsubscribe s.1 s.2) b
  { silent with scenes := silent.scenes.modify index fun client => { client with sources := [] } }

end LiveMap.Bus
