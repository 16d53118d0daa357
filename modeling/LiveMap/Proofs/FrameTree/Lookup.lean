import LiveMap.Proofs.Bus.Publication
import LiveMap.Proofs.FrameTree.Walks
import LiveMap.Proofs.Geometry.UnitQuaternion

/-!
# Relations of a frame tree

However a tree came about, its relations fit together: they compose, they are undone by going the
other way, and between a child and its parent they are what was told last.

## Main definitions

* `FrameTree.offer`, `FrameTree.replay`: the tree that messages make.
* `FrameTree.latest?`: what the messages told last of a child.

## Main statements

* `FrameTree.treeAt_feedTree`: a frame tree on a bus takes its messages as offers.
* `FrameTree.link?_replay`: a tree holds what was told last.
* `FrameTree.isProper_replay`: it holds proper poses only.
* `FrameTree.lookups_cohere`: the relations it tells.
-/

namespace LiveMap

namespace FrameTree

section Messages

variable {K : Type} [Scalar K]

/-- The tree after a message was offered to it; one that tells no pose changes nothing. -/
def offer (t : FrameTree K) (m : StampedTransform K) : FrameTree K :=
  match t.putMessage m with
  | .ok t => t
  | .error _ => t

/-- The tree that messages make one after the other. -/
def replay (ms : List (StampedTransform K)) : FrameTree K := ms.foldl offer {}

/-- The link of a child, if that is what a message tells. -/
def told? (child : String) (m : StampedTransform K) : Option (FrameLink K) :=
  match m.toPose with
  | .ok T => if m.child = child then some ⟨m.header.frame, m.header.stamp, T⟩ else none
  | .error _ => none

/-- The link that messages told last of a child. -/
def latest? (child : String) (ms : List (StampedTransform K)) : Option (FrameLink K) :=
  ms.reverse.findSome? (told? child)

theorem offer_ok (t : FrameTree K) {m : StampedTransform K} {T : Pose K} (h : m.toPose = .ok T) :
    t.offer m = t.put m.child ⟨m.header.frame, m.header.stamp, T⟩ := by
  simp [offer, putMessage, h, bind, Except.bind, pure, Except.pure]

theorem offer_error (t : FrameTree K) {m : StampedTransform K} {e : PoseError}
    (h : m.toPose = .error e) : t.offer m = t := by
  simp [offer, putMessage, h, bind, Except.bind]

/-- A tree on a bus takes a message as an offer. -/
theorem treeAt_feedTree {χ ρ : Type} {b : Bus K χ ρ} {i : Nat} {client : TreeClient K χ}
    (hclient : b.trees[i]? = some client) (m : StampedTransform K) :
    (b.feedTree i (.relation m)).1.treeAt i = (b.treeAt i).offer m := by
  have htree : b.treeAt i = client.tree := by simp [Bus.treeAt, hclient]
  cases hT : m.toPose with
  | error e =>
    rw [offer_error _ hT]
    simp [Bus.feedTree, hclient, putMessage, hT, bind, Except.bind]
  | ok T =>
    rw [Bus.feedTree_relation hclient hT, offer_ok _ hT, Bus.treeAt_set,
      if_pos ⟨rfl, (List.getElem?_eq_some_iff.mp hclient).1⟩, htree]
    rfl

theorem link?_offer (t : FrameTree K) (m : StampedTransform K) (child : String) :
    (t.offer m).link? child = (told? child m).or (t.link? child) := by
  cases hT : m.toPose with
  | error e => simp [offer_error t hT, told?, hT]
  | ok T =>
    rw [offer_ok t hT]
    by_cases hchild : m.child = child
    · subst hchild
      simp [told?, hT]
    · rw [link?_put_of_ne t _ (Ne.symm hchild)]
      simp [told?, hT, hchild]

/-- A tree holds of every child what was told last. -/
theorem link?_replay (ms : List (StampedTransform K)) (child : String) :
    (replay ms).link? child = latest? child ms := by
  induction ms using List.reverseRecOn with
  | nil => rfl
  | append_singleton ms m ih =>
    rw [replay, List.foldl_append, List.foldl_cons, List.foldl_nil, link?_offer, ← replay, ih,
      latest?, latest?, List.reverse_append, List.reverse_singleton, List.singleton_append,
      List.findSome?_cons]
    cases told? child m <;> rfl

end Messages

/-! ## Reached trees -/

theorem IsProper.offer {t : FrameTree ℝ} (ht : t.IsProper) (m : StampedTransform ℝ) :
    (t.offer m).IsProper := by
  intro child link hlink
  cases hT : m.toPose with
  | error e =>
    rw [offer_error t hT] at hlink
    exact ht child link hlink
  | ok T =>
    rw [link?_offer, told?, hT] at hlink
    dsimp only at hlink
    split at hlink
    next =>
      obtain rfl := Option.some.inj hlink
      exact StampedTransform.isProper_of_toPose hT
    next => exact ht child link hlink

/-- A tree holds proper poses only, whichever quaternions were told. -/
theorem isProper_replay (ms : List (StampedTransform ℝ)) : (replay ms).IsProper := by
  induction ms using List.reverseRecOn with
  | nil =>
    intro child link hlink
    cases hlink
  | append_singleton ms m ih =>
    rw [replay, List.foldl_append]
    exact ih.offer m

/-! ## Relations -/

section Relations

variable {t : FrameTree ℝ} {a b c : String}

theorem lookup_self (ha : t.Resolves a) : t.lookup a a = .ok .identity := (Ascent.stay a).lookup ha

theorem lookup_swap (ht : t.IsProper) {T : Pose ℝ} (hT : t.lookup a b = .ok T) :
    t.lookup b a = .ok T.inverse := by
  obtain ⟨ha, hb, top, A, B, hA, hB, rfl⟩ := (lookup_eq_ok_iff ht).mp hT
  refine (lookup_eq_ok_iff ht).mpr ⟨hb, ha, top, B, A, hB, hA, ?_⟩
  rw [Pose.IsProper.inverse_of_compose (hA.isProper ht).inverse (hB.isProper ht),
    (hA.isProper ht).inverse_inverse]

theorem lookup_parent {link : FrameLink ℝ} (hlink : t.link? a = some link) (ha : t.Resolves a) :
    t.lookup link.parent a = .ok link.pose := (Ascent.of_link hlink).lookup (ha.above hlink)

/-- Of the two frames where the ways meet, one lies above the other, and the ways from all three
frames go on to it. -/
theorem lookup_trans (ht : t.IsProper) {T U : Pose ℝ} (hT : t.lookup a b = .ok T)
    (hU : t.lookup b c = .ok U) : t.lookup a c = .ok (T.compose U) := by
  obtain ⟨ha, hb, low, A, B, hA, hB, rfl⟩ := (lookup_eq_ok_iff ht).mp hT
  obtain ⟨-, hc, high, B', C, hB', hC, rfl⟩ := (lookup_eq_ok_iff ht).mp hU
  refine (lookup_eq_ok_iff ht).mpr ⟨ha, hc, ?_⟩
  obtain ⟨V, hV, rfl⟩ | ⟨V, hV, rfl⟩ := hB.linear hB'
  · -- The way from `a` goes on from `low` to `high`.
    refine ⟨high, V.compose A, C, hA.trans hV, hC, ?_⟩
    rw [Pose.IsProper.inverse_of_compose (hV.isProper ht) (hB.isProper ht),
      Pose.IsProper.inverse_of_compose (hV.isProper ht) (hA.isProper ht)]
    simp only [Pose.compose_assoc, (hB.isProper ht).compose_inverse_cancel]
  · -- The way from `c` goes on from `high` to `low`.
    refine ⟨low, A, V.compose C, hA, hC.trans hV, ?_⟩
    simp only [Pose.compose_assoc, (hB'.isProper ht).compose_inverse_cancel]

/-- Whatever a tree was told, in whatever order: its relations compose, they are undone by going the
other way, no frame is moved against itself, and a child has the relation to its parent that was
told last. Each of them is the product of the relations told last on the way from the source up to
an ancestor in common and from there down to the target. -/
theorem lookups_cohere (ms : List (StampedTransform ℝ)) :
    (∀ a b c T U, (replay ms).lookup a b = .ok T → (replay ms).lookup b c = .ok U →
      (replay ms).lookup a c = .ok (T.compose U)) ∧
    (∀ a b T, (replay ms).lookup a b = .ok T → (replay ms).lookup b a = .ok T.inverse) ∧
    (∀ a, (replay ms).Resolves a → (replay ms).lookup a a = .ok .identity) ∧
    (∀ child link, latest? child ms = some link → (replay ms).Resolves child →
      (replay ms).lookup link.parent child = .ok link.pose) ∧
    (∀ a b X, (replay ms).lookup a b = .ok X ↔ (replay ms).Resolves a ∧ (replay ms).Resolves b ∧
      ∃ top T S, (replay ms).Ascent a T top ∧ (replay ms).Ascent b S top ∧
        X = T.inverse.compose S) ∧
    ∀ child, (replay ms).link? child = latest? child ms := by
  have ht : (replay ms).IsProper := isProper_replay ms
  refine ⟨fun a b c T U => lookup_trans ht, fun a b T => lookup_swap ht, fun a => lookup_self,
    fun child link hlatest => lookup_parent ?_, fun a b X => lookup_eq_ok_iff ht, link?_replay ms⟩
  rw [link?_replay, hlatest]

end Relations

section Reparenting

/-- A shift along the first axis, with a quaternion of some length. -/
noncomputable def shift (parent child : String) (x length : ℝ) : StampedTransform ℝ :=
  ⟨⟨0, parent⟩, child, .ofVec3 ⟨x, 0, 0⟩, (⟨0, 0, 0, length⟩ : Quaternion ℝ).toArray⟩

theorem told?_shift (child parent child' : String) (x : ℝ) {length : ℝ} (hlength : 0 < length) :
    told? child (shift parent child' x length) =
      if child' = child then some ⟨parent, 0, ⟨.identity, ⟨x, 0, 0⟩⟩⟩ else none := by
  have hpos : 0 < Quaternion.normSq ⟨0, 0, 0, length⟩ := by
    simp only [Quaternion.normSq]
    positivity
  have hdirects : Quaternion.Directs ⟨0, 0, 0, length⟩ .identity := by
    simp only [Quaternion.Directs, Quaternion.normSq]
    ext <;> simp [Quaternion.toMatrix, Mat3.zipWith, Mat3.identity]
  have hrotation : Quaternion.toRotation ⟨0, 0, 0, length⟩ = .ok (.identity : Mat3 ℝ) := by
    rw [Quaternion.toRotation, if_pos (Quaternion.norm_pos_iff.mpr hpos),
      Quaternion.toMatrix_normalize hpos hdirects]
  have hpose : (shift parent child' x length).toPose = .ok ⟨.identity, ⟨x, 0, 0⟩⟩ := by
    simp [StampedTransform.toPose, shift, Pose.ofQuaternion, hrotation, Pose.withTranslation, bind,
      Except.bind]
  rw [told?, hpose]
  rfl

theorem told?_shift_zero (child parent child' : String) (x : ℝ) :
    told? child (shift parent child' x 0) = none := by
  have hnorm : ¬ 0 < Quaternion.norm (⟨0, 0, 0, 0⟩ : Quaternion ℝ) := by
    rw [Quaternion.norm_pos_iff]
    simp [Quaternion.normSq]
  simp [told?, StampedTransform.toPose, shift, Pose.ofQuaternion, Quaternion.toRotation, hnorm,
    bind, Except.bind]

/-- A frame that is told a second parent, and one whose second relation is no pose. -/
noncomputable def reparented : List (StampedTransform ℝ) :=
  [shift "imu" "lidar" 0 1, shift "world" "odom" 1 (1 + 1), shift "lidar" "odom" 0 0,
    shift "world" "lidar" (-1) 1]

/-- Climbing from a frame right below the world ends there. -/
theorem resolves_reparented {child : String} {x : ℝ}
    (hlatest : latest? child reparented = some ⟨"world", 0, ⟨.identity, ⟨x, 0, 0⟩⟩⟩) :
    (replay reparented).Resolves child := by
  have hworld : latest? "world" reparented = none := by
    simp [latest?, reparented, told?_shift, told?_shift_zero]
  rw [← link?_replay] at hlatest hworld
  exact (resolves_root (knows_parent hlatest) hworld).below hlatest

/-- The lidar has moved on to the world, and the odometry has stayed there. -/
theorem lookup_reparented :
    (replay reparented).lookup "odom" "lidar" = .ok ⟨.identity, ⟨-1 - 1, 0, 0⟩⟩ ∧
      (replay reparented).lookup "lidar" "odom" = .ok ⟨.identity, ⟨1 + 1, 0, 0⟩⟩ ∧
      (replay reparented).lookup "odom" "odom" = .ok .identity := by
  have hodom : latest? "odom" reparented = some ⟨"world", 0, ⟨.identity, ⟨1, 0, 0⟩⟩⟩ := by
    simp [latest?, reparented, told?_shift, told?_shift_zero]
  have hlidar : latest? "lidar" reparented = some ⟨"world", 0, ⟨.identity, ⟨-1, 0, 0⟩⟩⟩ := by
    simp [latest?, reparented, told?_shift]
  have hresolves := resolves_reparented hodom
  obtain ⟨htrans, hswap, hself, hparent, -, -⟩ := lookups_cohere reparented
  have hup := hswap _ _ _ (hparent _ _ hodom hresolves)
  have hdown := hparent _ _ hlidar (resolves_reparented hlidar)
  have hacross := htrans _ _ _ _ _ hup hdown
  have hshift : (Pose.inverse ⟨.identity, ⟨1, 0, 0⟩⟩).compose ⟨.identity, ⟨-1, 0, 0⟩⟩ =
      (⟨.identity, ⟨-1 - 1, 0, 0⟩⟩ : Pose ℝ) := by
    ext <;> norm_num [Pose.inverse, Pose.compose, Pose.apply, Mat3.mulVec, Mat3.transpose,
      Mat3.identity, Vec3.dot]
  have hback : Pose.inverse ⟨.identity, ⟨-1 - 1, 0, 0⟩⟩ =
      (⟨.identity, ⟨1 + 1, 0, 0⟩⟩ : Pose ℝ) := by
    ext <;> norm_num [Pose.inverse, Mat3.mulVec, Mat3.transpose, Mat3.identity, Vec3.dot]
  rw [hshift] at hacross
  exact ⟨hacross, hback ▸ hswap _ _ _ hacross, hself _ hresolves⟩

end Reparenting

end FrameTree

end LiveMap
