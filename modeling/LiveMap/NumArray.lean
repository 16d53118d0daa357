import LiveMap.Geometry.Vector

/-!
# Numeric arrays

Input of every kind arrives as nested lists of scalars or as a shape with its entries. An array is
kept as its shape and its entries in row order, and the two always fit together.

## Main definitions

* `Shape.size`, `Shape.text`: how many entries a shape has, and how it is written.
* `NumArray`: a shape with exactly as many entries.
* `NumArray.stack?`: arrays of one shape as the rows of a larger one.
* `ArrayLiteral.toArray?`: reads nested lists; rows that disagree are no array.
-/

namespace LiveMap

/-- The lengths of an array along its axes, outermost first. -/
abbrev Shape := List Nat

namespace Shape

def size (s : Shape) : Nat := s.foldr (· * ·) 1

@[simp] theorem size_nil : size [] = 1 := rfl

@[simp] theorem size_cons (n : Nat) (s : Shape) : size (n :: s) = n * size s := rfl

/-- A shape between parentheses; a single length is followed by a comma. -/
def text : Shape → String
  | [n] => "(" ++ toString n ++ ",)"
  | s => "(" ++ ", ".intercalate (s.map toString) ++ ")"

end Shape

/-- A shape and its entries in row order. -/
structure NumArray (K : Type) where
  shape : Shape
  entries : List K
  length_entries : entries.length = shape.size := by simp

namespace NumArray

variable {K : Type}

def scalar (x : K) : NumArray K where
  shape := []
  entries := [x]

def ofList (xs : List K) : NumArray K where
  shape := [xs.length]
  entries := xs

def ofVec3 (v : Vec3 K) : NumArray K := ofList v.toList

/-- One row for each point. -/
def ofPoints (ps : List (Vec3 K)) : NumArray K where
  shape := [ps.length, 3]
  entries := ps.flatMap Vec3.toList
  length_entries := by
    rw [Vec3.length_flatMap_toList]
    simp [Nat.mul_comm]

/-- The entries without their shape. -/
def flatten (a : NumArray K) : NumArray K := ofList a.entries

/-- The length along the outermost axis; an array without axes counts as empty. -/
def length (a : NumArray K) : Nat := a.shape.headD 0

def isEmpty (a : NumArray K) : Bool := a.entries.isEmpty

theorem length_flatMap_entries {s : Shape} :
    ∀ {as : List (NumArray K)}, (∀ a ∈ as, a.shape = s) →
      (as.flatMap entries).length = as.length * s.size
  | [], _ => by simp
  | a :: as, h => by
    have hs : a.shape = s := h a (by simp)
    have ih : (as.flatMap entries).length = as.length * s.size :=
      length_flatMap_entries fun b hb => h b (by simp [hb])
    simp [ih, a.length_entries, hs, Nat.add_mul, Nat.add_comm]

/-- The arrays as rows of one array; no row at all gives an empty array with one axis. -/
def stack? (as : List (NumArray K)) : Option (NumArray K) :=
  match as with
  | [] => some (ofList [])
  | a :: rest =>
    if h : ∀ b ∈ a :: rest, b.shape = a.shape then
      some
        { shape := (a :: rest).length :: a.shape
          entries := (a :: rest).flatMap entries
          length_entries := length_flatMap_entries h }
    else none

/-- The last row of an array with rows. -/
def lastRow? : NumArray K → Option (NumArray K)
  | ⟨(rows + 1) :: rest, entries, h⟩ =>
    some ⟨rest, entries.drop (rows * Shape.size rest), by simp [h, Nat.add_mul]⟩
  | _ => none

/-- A shape with entries listed in row order, if their number fits. -/
def ofShape? (shape : Shape) (entries : List K) : Option (NumArray K) :=
  if h : entries.length = shape.size then some ⟨shape, entries, h⟩ else none

/-- The point that three entries make up, whatever their shape. -/
def vec3? (a : NumArray K) : Option (Vec3 K) :=
  match a.entries with
  | [x, y, z] => some ⟨x, y, z⟩
  | _ => none

@[simp] theorem vec3?_ofVec3 (v : Vec3 K) : (ofVec3 v).vec3? = some v := rfl

/-- The points of an array with three columns. -/
def points? (a : NumArray K) : Option (List (Vec3 K)) :=
  match a.shape with
  | [_, 3] => some (Vec3.ofEntries a.entries)
  | _ => none

@[simp] theorem points?_ofPoints (ps : List (Vec3 K)) : (ofPoints ps).points? = some ps := by
  simp [points?, ofPoints, Vec3.ofEntries_flatMap_toList]

/-- An array with three columns is made of points. -/
theorem exists_eq_ofPoints {n : Nat} {a : NumArray K} (h : a.shape = [n, 3]) :
    ∃ ps, ps.length = n ∧ a = ofPoints ps := by
  have hlength : a.entries.length = n * 3 := by simp [a.length_entries, h]
  have hentries : (Vec3.ofEntries a.entries).flatMap Vec3.toList = a.entries :=
    Vec3.flatMap_toList_ofEntries (by omega)
  have hcount : (Vec3.ofEntries a.entries).length = n := by
    have hthree := Vec3.length_flatMap_toList (Vec3.ofEntries a.entries)
    rw [hentries] at hthree
    omega
  refine ⟨_, hcount, ?_⟩
  obtain ⟨shape, entries, _⟩ := a
  simp only [ofPoints, NumArray.mk.injEq]
  exact ⟨by rw [hcount]; exact h, hentries.symm⟩

end NumArray

/-- An array as it is written down: a scalar, a list of arrays, or a shape with entries. -/
inductive ArrayLiteral (K : Type) where
  | number (x : K)
  | list (items : List (ArrayLiteral K))
  | shaped (shape : Shape) (entries : List K)

namespace ArrayLiteral

variable {K : Type}

instance : Inhabited (ArrayLiteral K) := ⟨.list []⟩

mutual

/-- The array that is written down; there is none when rows disagree in shape. -/
def toArray? : ArrayLiteral K → Option (NumArray K)
  | number x => some (.scalar x)
  | list items => (rows? items).bind NumArray.stack?
  | shaped shape entries => NumArray.ofShape? shape entries

/-- The arrays of a list of literals. -/
def rows? : List (ArrayLiteral K) → Option (List (NumArray K))
  | [] => some []
  | item :: rest => do return (← toArray? item) :: (← rows? rest)

end

/-- The literal that lists the entries of an array. -/
def ofArray (a : NumArray K) : ArrayLiteral K := .shaped a.shape a.entries

@[simp] theorem toArray?_ofArray (a : NumArray K) : (ofArray a).toArray? = some a := by
  simp [ofArray, toArray?, NumArray.ofShape?, a.length_entries]

end ArrayLiteral

end LiveMap
