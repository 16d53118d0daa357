import LiveMap.NumArray
import LiveMap.Scene.HeightColour

/-!
# Draws

What a scene hands to the program that shows it: things at places of a tree of entities, and the
time that they hold for.

## Main definitions

* `Item`: coordinate axes, relations, points and line strips.
* `Draw`: the things that a scene does, one at a time.
-/

namespace LiveMap

/-- What can stand at an entity. Points and strips have a colour each, or one for all. -/
inductive Item (K : Type) where
  /-- Forward is x, left is y and up is z. -/
  | rightHandedUp
  | relation (translation rotation : NumArray K)
  | points (rows : List (NumArray K)) (colours : List Colour) (radius : K)
  | strip (positions : NumArray K) (colours : List Colour) (radius : K)

/-- One thing that a scene does. -/
inductive Draw (K : Type) where
  | opened (application : String) (shown : Bool)
  | layout (name origin : String)
  /-- What follows holds at a time of the sensors. -/
  | sensorTime (stamp : K)
  /-- What follows holds at a time of the wall clock. -/
  | wallTime (stamp : K)
  | item (path : String) (item : Item K)
  /-- An item that holds at all times. -/
  | fixed (path : String) (item : Item K)

end LiveMap
