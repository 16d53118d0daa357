import LiveMap.NumArray

/-!
# Why a pose cannot be made or used

## Main definitions

* `PoseError`: the causes, by what is wrong with the input.
* `PoseError.message`: their wording.
-/

namespace LiveMap

/-- What keeps arrays from being a pose, or a pose from being applied or converted. -/
inductive PoseError where
  /-- The rows of a nested list disagree in shape, or entries do not fill a shape. -/
  | notAnArray
  | rotationShape (shape : Shape)
  | translationShape (shape : Shape)
  | transformShape (shape : Shape)
  | pointsShape (shape : Shape)
  /-- A flat list of coordinates that is not one point. -/
  | pointLength (length : Nat)
  | rotationVectorLength (length : Nat)
  | quaternionShape (shape : Shape)
  /-- A quaternion without direction, or with an undefined part. -/
  | quaternionWithoutDirection
  /-- A matrix that turns space inside out or flattens it. -/
  | handednessLost
  /-- A matrix with an undefined or unbounded entry. -/
  | undefinedRotation
  deriving DecidableEq, Repr

def PoseError.message : PoseError → String
  | .notAnArray => "Nested lists must agree in shape"
  | .rotationShape shape => "Rotation must be 3x3, got " ++ Shape.text shape
  | .translationShape shape => "Translation must be (3,), got " ++ Shape.text shape
  | .transformShape shape => "Transform must be 4x4, got " ++ Shape.text shape
  | .pointsShape shape => "Points must be Nx3, got " ++ Shape.text shape
  | .pointLength length => "Point must have 3 coordinates, got " ++ toString length
  | .rotationVectorLength length => "Rotation vector must have 3 parts, got " ++ toString length
  | .quaternionShape shape => "Quaternion must be (4,), got " ++ Shape.text shape
  | .quaternionWithoutDirection => "Quaternion must have a defined direction"
  | .handednessLost => "Rotation must keep the handedness of space"
  | .undefinedRotation => "Rotation must have bounded entries"

/-- A computation in two steps succeeds only if both do. -/
theorem exists_of_bind_eq_ok {ε α β : Type} {first : Except ε α} {next : α → Except ε β} {b : β}
    (h : first >>= next = .ok b) : ∃ a, first = .ok a ∧ next a = .ok b := by
  cases first with
  | error e => cases h
  | ok a => exact ⟨a, rfl, h⟩

def ArrayLiteral.toArray {K : Type} (a : ArrayLiteral K) : Except PoseError (NumArray K) :=
  match a.toArray? with
  | some array => .ok array
  | none => .error .notAnArray

@[simp] theorem ArrayLiteral.toArray_ofArray {K : Type} (a : NumArray K) :
    (ArrayLiteral.ofArray a).toArray = .ok a := by
  simp [ArrayLiteral.toArray]

end LiveMap
