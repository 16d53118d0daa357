import LiveMap.NumArray

/-!
# Three by three matrices

Linear maps of space, as three rows.

## Main definitions

* `Mat3` with `Mat3.mulVec`, the product, `Mat3.transpose`, `Mat3.trace` and `Mat3.det`.
* `Mat3.cofactors`: the matrix whose transpose, over the determinant, is the inverse.
* `Mat3.ofArray?`: the matrix that an array of shape three by three spells out.
-/

namespace LiveMap

/-- Three rows. -/
@[ext] structure Mat3 (K : Type) where
  x : Vec3 K
  y : Vec3 K
  z : Vec3 K
  deriving DecidableEq, Repr

namespace Mat3

variable {K : Type}

def transpose (m : Mat3 K) : Mat3 K :=
  ⟨⟨m.x.x, m.y.x, m.z.x⟩, ⟨m.x.y, m.y.y, m.z.y⟩, ⟨m.x.z, m.y.z, m.z.z⟩⟩

@[simp] theorem transpose_transpose (m : Mat3 K) : m.transpose.transpose = m := rfl

def toList (m : Mat3 K) : List K := m.x.toList ++ m.y.toList ++ m.z.toList

/-- The matrix that an array of shape three by three spells out. -/
def ofArray? (a : NumArray K) : Option (Mat3 K) :=
  match a.shape, a.points? with
  | [3, 3], some [u, v, w] => some ⟨u, v, w⟩
  | _, _ => none

def toArray (m : Mat3 K) : NumArray K := .ofPoints [m.x, m.y, m.z]

@[simp] theorem ofArray?_toArray (m : Mat3 K) : ofArray? m.toArray = some m := by
  simp only [ofArray?, toArray, NumArray.points?_ofPoints]
  rfl

variable [Scalar K]

def identity : Mat3 K := ⟨⟨1, 0, 0⟩, ⟨0, 1, 0⟩, ⟨0, 0, 1⟩⟩

def mulVec (m : Mat3 K) (v : Vec3 K) : Vec3 K := ⟨m.x.dot v, m.y.dot v, m.z.dot v⟩

def mul (m n : Mat3 K) : Mat3 K :=
  let t := n.transpose
  ⟨t.mulVec m.x, t.mulVec m.y, t.mulVec m.z⟩

instance : Mul (Mat3 K) := ⟨mul⟩

/-- Each entry made by a function of the entries at the same place. -/
def zipWith (f : K → K → K) (m n : Mat3 K) : Mat3 K :=
  ⟨⟨f m.x.x n.x.x, f m.x.y n.x.y, f m.x.z n.x.z⟩,
   ⟨f m.y.x n.y.x, f m.y.y n.y.y, f m.y.z n.y.z⟩,
   ⟨f m.z.x n.z.x, f m.z.y n.z.y, f m.z.z n.z.z⟩⟩

def trace (m : Mat3 K) : K := m.x.x + m.y.y + m.z.z

/-- The signed minors, each at the place it belongs to. -/
def cofactors (m : Mat3 K) : Mat3 K :=
  ⟨⟨m.y.y * m.z.z - m.y.z * m.z.y, m.y.z * m.z.x - m.y.x * m.z.z, m.y.x * m.z.y - m.y.y * m.z.x⟩,
   ⟨m.x.z * m.z.y - m.x.y * m.z.z, m.x.x * m.z.z - m.x.z * m.z.x, m.x.y * m.z.x - m.x.x * m.z.y⟩,
   ⟨m.x.y * m.y.z - m.x.z * m.y.y, m.x.z * m.y.x - m.x.x * m.y.z, m.x.x * m.y.y - m.x.y * m.y.x⟩⟩

/-- The determinant, expanded along the first row. -/
def det (m : Mat3 K) : K := m.x.dot m.cofactors.x

/-- Orthonormal rows and columns. -/
def IsOrthogonal (m : Mat3 K) : Prop := m * m.transpose = identity ∧ m.transpose * m = identity

/-- A proper rotation: orthogonal, and keeping the handedness of space. -/
def IsRotation (m : Mat3 K) : Prop := m.IsOrthogonal ∧ m.det = 1

end Mat3

end LiveMap
