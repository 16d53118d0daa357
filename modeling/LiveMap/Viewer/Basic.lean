import LiveMap.Bus.Basic
import LiveMap.GlobalMap
import LiveMap.Schedule.Scheduler
import LiveMap.Trajectory.Basic
import LiveMap.Viewer.Settings

/-!
# Viewers

A viewer turns estimates into messages. What it knows is its trajectory, the retained clouds and its
counts; what it tells goes to five outputs of a bus. Work on the map is deferred to its scheduler.

## Main definitions

* `Stats`: what a viewer has done so far.
* `Viewer`: what it knows; `Station`: a viewer at its outputs.
* `Rebuild`: a deferred rebuild of the map; `ViewerHost`: a viewer with its scheduler.
-/

namespace LiveMap

/-- What a viewer has done so far. -/
structure Stats where
  frames : Nat := 0
  submapUpdates : Nat := 0
  pointsConverted : Nat := 0
  odometryPublished : Nat := 0
  posesPublished : Nat := 0
  mapsPublished : Nat := 0
  deriving DecidableEq, Repr

/-- What a viewer knows. -/
structure Viewer (K : Type) where
  settings : Settings K
  trajectory : Trajectory K
  globalMap : GlobalMap K := {}
  stats : Stats := {}

/-- A viewer that has seen nothing. -/
def Viewer.start {K : Type} [Scalar K] (settings : Settings K) : Viewer K :=
  { settings, trajectory := .start settings.stampTolerance }

/-- An output of one of many viewers. -/
abbrev Address := Nat × Output

/-- A viewer at its outputs, with the wall clock that it stamps the map by. -/
structure Station (K ρ : Type) where
  /-- The number that the outputs of the viewer go by. -/
  id : Nat
  viewer : Viewer K
  bus : Bus K Address ρ
  wallClock : K

namespace Station

variable {K ρ : Type}

instance : Noted (Station K ρ) K := ⟨fun n s => { s with bus := note n s.bus }⟩

def isHeard (o : Output) (s : Station K ρ) : Bool := s.bus.isHeard (s.id, o)

def publish [Scalar K] (o : Output) (m : Message K) (s : Station K ρ) : Station K ρ :=
  { s with bus := s.bus.publish (s.id, o) m }

def count (f : Stats → Stats) (s : Station K ρ) : Station K ρ :=
  { s with viewer := { s.viewer with stats := f s.viewer.stats } }

end Station

/-- A deferred rebuild of the map: the submaps that were delivered, and the poses that their origins
had then. -/
structure Rebuild (K : Type) where
  submaps : List (Submap K)
  poses : List (Pose K)

instance {K : Type} : Titled (Rebuild K) := ⟨fun _ => .mergeSubmaps⟩

/-- A viewer at its outputs, with its scheduler. -/
abbrev ViewerHost (K ρ : Type) := Host K (Rebuild K) (Station K ρ)

end LiveMap
