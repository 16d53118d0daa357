import LiveMap.Message.Header

/-!
# Frame trees

A frame tree keeps, for every child frame, the latest relation to its parent. The relation of any
two frames that meet in a common ancestor is found by climbing from both.

## Main definitions

* `FrameTree` with `FrameTree.put`, `FrameTree.link?` and `FrameTree.frames`.
* `FrameTree.chain`: the frames from one frame up to its root.
* `FrameTree.lookup`: the pose of one frame in another.
-/

namespace LiveMap

/-- The relation of a child frame to its parent: the stamp it holds for and `T_parent_child`. -/
structure FrameLink (K : Type) where
  parent : String
  stamp : K
  pose : Pose K

/-- The links by their child frames, in the order in which the children first came. -/
structure FrameTree (K : Type) where
  links : List (String × FrameLink K) := []

/-- Why a relation cannot be told. -/
inductive FrameError where
  | unknown (frame : String)
  | cycle (frame : String)
  | notConnected (target source : String)
  | noParent (frame : String)
  deriving DecidableEq, Repr

def FrameError.message : FrameError → String
  | unknown frame => "Unknown frame '" ++ frame ++ "'"
  | cycle frame => "Cycle in frame tree at '" ++ frame ++ "'"
  | notConnected target source =>
    "Frames '" ++ target ++ "' and '" ++ source ++ "' are not connected"
  | noParent frame => "Frame '" ++ frame ++ "' has no parent"

/-- The frames of a chain, each with the pose of the chain's first frame in it. -/
abbrev FrameChain (K : Type) := List (String × Pose K)

namespace FrameTree

variable {K : Type}

/-- The links with the one of a child replaced, or added behind the others. -/
def putLink (child : String) (link : FrameLink K) :
    List (String × FrameLink K) → List (String × FrameLink K)
  | [] => [(child, link)]
  | (c, l) :: rest => if c = child then (child, link) :: rest else (c, l) :: putLink child link rest

/-- The tree with the relation of a child to its parent replaced. -/
def put (t : FrameTree K) (child : String) (link : FrameLink K) : FrameTree K :=
  ⟨putLink child link t.links⟩

def link? (t : FrameTree K) (child : String) : Option (FrameLink K) :=
  (t.links.find? fun p => p.1 = child).map Prod.snd

@[simp] theorem link?_put_self (t : FrameTree K) (child : String) (link : FrameLink K) :
    (t.put child link).link? child = some link := by
  obtain ⟨links⟩ := t
  simp only [put, link?]
  induction links with
  | nil => simp [putLink]
  | cons p rest ih =>
    simp only [putLink]
    split
    · simp
    · next h => simpa [h] using ih

theorem link?_put_of_ne (t : FrameTree K) {child frame : String} (link : FrameLink K)
    (h : frame ≠ child) : (t.put child link).link? frame = t.link? frame := by
  obtain ⟨links⟩ := t
  simp only [put, link?]
  induction links with
  | nil => simp [putLink, Ne.symm h]
  | cons p rest ih =>
    simp only [putLink]
    split
    · next hp => simp [hp, Ne.symm h]
    · by_cases hf : p.1 = frame
      · simp [hf]
      · simpa [hf] using ih

theorem mem_of_link? {t : FrameTree K} {frame : String} {link : FrameLink K}
    (h : t.link? frame = some link) : (frame, link) ∈ t.links := by
  obtain ⟨p, hp, rfl⟩ := Option.map_eq_some_iff.mp h
  have hf : p.1 = frame := by simpa using List.find?_some hp
  exact hf ▸ List.mem_of_find?_eq_some hp

/-- The frame is a child or a parent. -/
def Knows (t : FrameTree K) (frame : String) : Prop :=
  frame ∈ t.links.map Prod.fst ∨ frame ∈ t.links.map fun p => p.2.parent

instance (t : FrameTree K) (frame : String) : Decidable (t.Knows frame) :=
  inferInstanceAs (Decidable (_ ∨ _))

/-- The children and parents in alphabetical order, each once. -/
def frames (t : FrameTree K) : List String :=
  ((t.links.map Prod.fst ++ t.links.map fun p => p.2.parent).eraseDups).mergeSort
    fun a b => a ≤ b

@[simp] theorem mem_frames {t : FrameTree K} {frame : String} :
    frame ∈ t.frames ↔ t.Knows frame := by
  simp [frames, Knows, List.mem_mergeSort, List.mem_eraseDups]

def stampOf (t : FrameTree K) (frame : String) : Except FrameError K :=
  match t.link? frame with
  | some link => .ok link.stamp
  | none => .error (.noParent frame)

/-! ## Climbing -/

/-- The number of links whose child has not been passed; climbing ends because it falls. -/
def remaining (t : FrameTree K) (passed : List String) : Nat :=
  t.links.countP fun p => p.1 ∉ passed

theorem countP_lt_countP {α : Type} {p q : α → Bool} (hpq : ∀ x, p x → q x) {a : α}
    (hp : p a = false) (hq : q a = true) : ∀ {xs : List α}, a ∈ xs → xs.countP p < xs.countP q
  | x :: xs, h => by
    have hle : xs.countP p ≤ xs.countP q := List.countP_mono_left fun y _ => hpq y
    rcases List.mem_cons.mp h with rfl | h
    · simp only [List.countP_cons, hp, hq]
      simp
      omega
    · have ih := countP_lt_countP hpq hp hq h
      have hx : (if p x = true then 1 else 0) ≤ (if q x = true then 1 else 0) := by
        cases h : p x with
        | false => simp
        | true => simp [hpq x h]
      simpa only [List.countP_cons] using Nat.add_lt_add_of_lt_of_le ih hx

theorem remaining_cons_lt {t : FrameTree K} {passed : List String} {frame : String}
    {link : FrameLink K} (hf : frame ∉ passed) (hl : t.link? frame = some link) :
    t.remaining (frame :: passed) < t.remaining passed :=
  countP_lt_countP (by simp) (by simp) (by simpa using hf) (mem_of_link? hl)

variable [Scalar K]

/-- The relation that a message tells, put into the tree. -/
def putMessage (t : FrameTree K) (m : StampedTransform K) : Except PoseError (FrameTree K) := do
  return t.put m.child ⟨m.header.frame, m.header.stamp, ← m.toPose⟩

/-- The chain from a frame upward, when `passed` are the frames below and `T` is the pose of the
first one. -/
def climb (t : FrameTree K) (passed : List String) (frame : String) (T : Pose K) :
    Except FrameError (FrameChain K) :=
  if _ : frame ∈ passed then .error (.cycle frame)
  else
    match _ : t.link? frame with
    | none => .ok [(frame, T)]
    | some link =>
      match t.climb (frame :: passed) link.parent (link.pose.compose T) with
      | .ok chain => .ok ((frame, T) :: chain)
      | .error e => .error e
termination_by t.remaining passed
decreasing_by exact remaining_cons_lt ‹_ ∉ _› ‹_ = some _›

/-- The chain from a frame to its root. -/
def chain (t : FrameTree K) (frame : String) : Except FrameError (FrameChain K) :=
  if t.Knows frame then t.climb [] frame .identity else .error (.unknown frame)

/-- The first frame of a chain that stands in another one, with the poses of the first frames of
both in it. -/
def meet? (target source : FrameChain K) : Option (Pose K × Pose K) :=
  source.findSome? fun s => (target.lookup s.1).map fun T => (T, s.2)

/-- The pose `T_target_source`. Of two frames without chain the target is reported. -/
def lookup (t : FrameTree K) (target source : String) : Except FrameError (Pose K) := do
  let targetChain ← t.chain target
  let sourceChain ← t.chain source
  match meet? targetChain sourceChain with
  | some (T_common_target, T_common_source) =>
    return T_common_target.inverse.compose T_common_source
  | none => throw (.notConnected target source)

end FrameTree

end LiveMap
