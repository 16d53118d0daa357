import LiveMap.Scalar

/-!
# Vectors

Points and directions with three coordinates.

## Main definitions

* `Vec3` with its sum, difference, negation and multiples.
* `Vec3.dot`, `Vec3.norm`: inner product and length.
* `Vec3.ofEntries`: the points that a flat list of coordinates spells out.
-/

namespace LiveMap

/-- Three coordinates. -/
@[ext] structure Vec3 (K : Type) where
  x : K
  y : K
  z : K
  deriving DecidableEq, Repr

namespace Vec3

variable {K : Type}

def toList (v : Vec3 K) : List K := [v.x, v.y, v.z]

/-- The points whose coordinates are listed one after the other. -/
def ofEntries : List K → List (Vec3 K)
  | x :: y :: z :: rest => ⟨x, y, z⟩ :: ofEntries rest
  | _ => []

theorem ofEntries_flatMap_toList : ∀ ps : List (Vec3 K), ofEntries (ps.flatMap toList) = ps
  | [] => rfl
  | p :: ps => by
    simpa [ofEntries, toList] using ofEntries_flatMap_toList ps

theorem flatMap_toList_ofEntries :
    ∀ {xs : List K}, xs.length % 3 = 0 → (ofEntries xs).flatMap toList = xs
  | [], _ => rfl
  | [_], h | [_, _], h => by simp at h
  | x :: y :: z :: rest, h => by
    have hrest : rest.length % 3 = 0 := by
      simp only [List.length_cons] at h
      omega
    simp [ofEntries, toList, flatMap_toList_ofEntries hrest]

theorem length_flatMap_toList : ∀ ps : List (Vec3 K), (ps.flatMap toList).length = 3 * ps.length
  | [] => rfl
  | p :: ps => by
    simp only [List.flatMap_cons, List.length_append, List.length_cons, length_flatMap_toList ps]
    simp [toList]
    omega

variable [Scalar K]

def zero : Vec3 K := ⟨0, 0, 0⟩

instance : Add (Vec3 K) := ⟨fun u v => ⟨u.x + v.x, u.y + v.y, u.z + v.z⟩⟩

instance : Neg (Vec3 K) := ⟨fun v => ⟨-v.x, -v.y, -v.z⟩⟩

def scale (k : K) (v : Vec3 K) : Vec3 K := ⟨k * v.x, k * v.y, k * v.z⟩

def dot (u v : Vec3 K) : K := u.x * v.x + u.y * v.y + u.z * v.z

def norm (v : Vec3 K) : K := Scalar.sqrt (dot v v)

@[simp] theorem add_x (u v : Vec3 K) : (u + v).x = u.x + v.x := rfl

@[simp] theorem add_y (u v : Vec3 K) : (u + v).y = u.y + v.y := rfl

@[simp] theorem add_z (u v : Vec3 K) : (u + v).z = u.z + v.z := rfl

@[simp] theorem neg_x (v : Vec3 K) : (-v).x = -v.x := rfl

@[simp] theorem neg_y (v : Vec3 K) : (-v).y = -v.y := rfl

@[simp] theorem neg_z (v : Vec3 K) : (-v).z = -v.z := rfl

/-- Every coordinate is bounded. -/
def IsFinite (v : Vec3 K) : Prop :=
  Scalar.IsFinite v.x ∧ Scalar.IsFinite v.y ∧ Scalar.IsFinite v.z

instance (v : Vec3 K) : Decidable v.IsFinite := inferInstanceAs (Decidable (_ ∧ _ ∧ _))

end Vec3

end LiveMap
