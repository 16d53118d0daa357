import LiveMap.Proofs.Geometry.Homogeneous

/-!
# Poses that agree

Two poses count as close when each entry of the first is away from that of the second by no more
than the tolerance and a hundred-thousandth of the second entry's size. So the tolerance alone
bounds the distance at the origin only: what is accepted elsewhere grows with the coordinates of the
second pose, and the two poses cannot be exchanged.

## Main definitions

* `Pose.Entrywise`: a relation between the entries of two poses, place by place.
* `Pose.Within`: the entries differ by no more than a tolerance.

## Main statements

* `Pose.isClose_iff`: what two poses that are close have in common.
* `Pose.isClose_allows`: the distance that is accepted, in both orders and at all coordinates.
-/

namespace LiveMap

theorem Vec3.forall_coords {R : ℝ → ℝ → Prop} {u v : Vec3 ℝ} :
    (∀ i, R (u.coords i) (v.coords i)) ↔ R u.x v.x ∧ R u.y v.y ∧ R u.z v.z :=
  Fin.forall_fin_succ.trans (and_congr_right' Fin.forall_fin_two)

namespace Pose

/-! ## Entries by place -/

/-- The entries of two poses at each place are in a relation. -/
structure Entrywise (R : ℝ → ℝ → Prop) (T U : Pose ℝ) : Prop where
  rotation : ∀ i j, R (T.rotation.coords i j) (U.rotation.coords i j)
  translation : ∀ i, R (T.translation.coords i) (U.translation.coords i)

namespace Entrywise

variable {R S : ℝ → ℝ → Prop} {T U : Pose ℝ}

theorem imp (h : Entrywise R T U) (hRS : ∀ a b, R a b → S a b) : Entrywise S T U :=
  ⟨fun i j => hRS _ _ (h.rotation i j), fun i => hRS _ _ (h.translation i)⟩

theorem swap (h : Entrywise R T U) : Entrywise (fun b a => R a b) U T :=
  ⟨h.rotation, h.translation⟩

theorem and (hR : Entrywise R T U) (hS : Entrywise S T U) :
    Entrywise (fun a b => R a b ∧ S a b) T U :=
  ⟨fun i j => ⟨hR.rotation i j, hS.rotation i j⟩,
    fun i => ⟨hR.translation i, hS.translation i⟩⟩

/-- The entries row by row. -/
theorem iff_rows : Entrywise R T U ↔
    ((R T.rotation.x.x U.rotation.x.x ∧ R T.rotation.x.y U.rotation.x.y ∧
        R T.rotation.x.z U.rotation.x.z) ∧
      (R T.rotation.y.x U.rotation.y.x ∧ R T.rotation.y.y U.rotation.y.y ∧
        R T.rotation.y.z U.rotation.y.z) ∧
      R T.rotation.z.x U.rotation.z.x ∧ R T.rotation.z.y U.rotation.z.y ∧
        R T.rotation.z.z U.rotation.z.z) ∧
    R T.translation.x U.translation.x ∧ R T.translation.y U.translation.y ∧
      R T.translation.z U.translation.z := by
  have hrotation : (∀ i j, R (T.rotation.coords i j) (U.rotation.coords i j)) ↔
      (∀ j, R (T.rotation.x.coords j) (U.rotation.x.coords j)) ∧
      (∀ j, R (T.rotation.y.coords j) (U.rotation.y.coords j)) ∧
      ∀ j, R (T.rotation.z.coords j) (U.rotation.z.coords j) :=
    Fin.forall_fin_succ.trans (and_congr_right' Fin.forall_fin_two)
  rw [Vec3.forall_coords, Vec3.forall_coords, Vec3.forall_coords] at hrotation
  rw [← hrotation, ← Vec3.forall_coords]
  exact ⟨fun h => ⟨h.rotation, h.translation⟩, fun h => ⟨h.1, h.2⟩⟩

end Entrywise

/-- No entry differs by more than a tolerance. -/
def Within (tolerance : ℝ) (T U : Pose ℝ) : Prop := Entrywise (fun a b => |a - b| ≤ tolerance) T U

/-! ## Closeness -/

/-- How far an entry may be from the entry `b`. -/
noncomputable def allowance (tolerance b : ℝ) : ℝ := tolerance + (10 ^ 5)⁻¹ * |b|

theorem le_allowance (tolerance b : ℝ) : tolerance ≤ allowance tolerance b := by
  have hpart : 0 ≤ (10 ^ 5)⁻¹ * |b| := by positivity
  unfold allowance
  linarith

theorem entriesClose_iff {tolerance : ℝ} (h : 0 ≤ tolerance) (a b : ℝ) :
    entriesClose tolerance a b = true ↔ |a - b| ≤ allowance tolerance b := by
  have hfinite : Scalar.IsFinite b := le_refl (b - b)
  have hequal : Scalar.Equal a b → |a - b| ≤ allowance tolerance b := by
    rintro ⟨hab, hba⟩
    rw [le_antisymm hab hba, sub_self, abs_zero]
    exact h.trans (le_allowance tolerance b)
  have hpart : (Scalar.toOfScientific.ofScientific 1 true 5 : ℝ) * |b| = (10 ^ 5)⁻¹ * |b| := by
    norm_num
  rw [allowance, ← hpart] at hequal ⊢
  simp only [entriesClose, Bool.or_eq_true, Bool.and_eq_true, decide_eq_true_eq, hfinite, true_and]
  exact ⟨fun hclose => hclose.elim id hequal, .inl⟩

theorem isClose_iff {tolerance : ℝ} (h : 0 ≤ tolerance) (T U : Pose ℝ) :
    T.isClose U tolerance = true ↔
      Entrywise (fun a b => |a - b| ≤ allowance tolerance b) T U := by
  rw [Entrywise.iff_rows]
  simp only [isClose, Mat3.toList, Vec3.toList, List.cons_append, List.nil_append,
    List.zipWith_cons_cons, List.zipWith_nil_left, List.all_cons, List.all_nil, id_eq,
    Bool.and_eq_true, and_true, entriesClose_iff h, and_assoc]

theorem allowance_nonneg {tolerance : ℝ} (h : 0 ≤ tolerance) (b : ℝ) :
    0 ≤ allowance tolerance b := h.trans (le_allowance tolerance b)

theorem allowance_le_iff {tolerance b : ℝ} : allowance tolerance b ≤ tolerance ↔ b = 0 := by
  have hnonneg := abs_nonneg b
  rw [← abs_eq_zero, allowance]
  constructor <;> intro h <;> linarith

section Tolerance

variable {tolerance : ℝ} (h : 0 ≤ tolerance)
include h

theorem isClose_of_within {T U : Pose ℝ} (hwithin : T.Within tolerance U) :
    T.isClose U tolerance = true :=
  (isClose_iff h T U).mpr (hwithin.imp fun _ b hab => hab.trans (le_allowance tolerance b))

/-- Poses are close in both orders when the smaller of two entries allows for their distance. -/
theorem isClose_both_iff (T U : Pose ℝ) :
    T.isClose U tolerance = true ∧ U.isClose T tolerance = true ↔
      Entrywise (fun a b => |a - b| ≤ min (allowance tolerance a) (allowance tolerance b)) T U := by
  rw [isClose_iff h, isClose_iff h]
  constructor
  · intro ⟨hforth, hback⟩
    refine (hback.swap.and hforth).imp fun a b hab => le_min ?_ hab.2
    rw [abs_sub_comm]
    exact hab.1
  · intro hboth
    refine ⟨hboth.imp fun a b hab => hab.trans (min_le_right _ _),
      hboth.swap.imp fun b a hab => ?_⟩
    rw [abs_sub_comm]
    exact hab.trans (min_le_left _ _)

/-- Of poses that differ in their places only, all that is accepted is within the tolerance just
when the second one stands at the origin. -/
theorem within_of_isClose_iff (U : Pose ℝ) :
    (∀ t, (⟨U.rotation, t⟩ : Pose ℝ).isClose U tolerance = true →
      (⟨U.rotation, t⟩ : Pose ℝ).Within tolerance U) ↔ U.translation = .zero := by
  constructor
  · intro hwithin
    -- The pose that is as far away as is accepted, along every axis.
    have hfar := hwithin ⟨U.translation.x + allowance tolerance U.translation.x,
      U.translation.y + allowance tolerance U.translation.y,
      U.translation.z + allowance tolerance U.translation.z⟩ <| by
        rw [isClose_iff h, Entrywise.iff_rows]
        simp only [sub_self, abs_zero, add_sub_cancel_left, abs_of_nonneg (allowance_nonneg h _),
          allowance_nonneg h, le_refl, and_self]
    rw [Within, Entrywise.iff_rows] at hfar
    simp only [add_sub_cancel_left, abs_of_nonneg (allowance_nonneg h _), allowance_le_iff] at hfar
    exact Vec3.ext hfar.2.1 hfar.2.2.1 hfar.2.2.2
  · intro hzero t hclose
    have hplaces := ((isClose_iff h _ U).mp hclose).translation
    refine ⟨fun i j => by simpa using h, fun i => (hplaces i).trans (allowance_le_iff.mpr ?_)⟩
    rw [hzero]
    fin_cases i <;> rfl

/-- In exact arithmetic, poses are close when each entry of the rotation and of the translation of
the first is away from that of the second by at most the tolerance and a hundred-thousandth of the
second entry's size. Poses whose entries differ by at most the tolerance are close in both orders;
poses are close in both orders when the smaller of two entries allows for it. The tolerance alone
bounds what is accepted just for a second pose at the origin. -/
theorem isClose_allows :
    (∀ T U : Pose ℝ, T.isClose U tolerance = true ↔
      Entrywise (fun a b => |a - b| ≤ tolerance + (10 ^ 5)⁻¹ * |b|) T U) ∧
    (∀ T U : Pose ℝ, T.Within tolerance U →
      T.isClose U tolerance = true ∧ U.isClose T tolerance = true) ∧
    (∀ T U : Pose ℝ, T.isClose U tolerance = true ∧ U.isClose T tolerance = true ↔
      Entrywise
        (fun a b =>
          |a - b| ≤ min (tolerance + (10 ^ 5)⁻¹ * |a|) (tolerance + (10 ^ 5)⁻¹ * |b|)) T U) ∧
    ∀ U : Pose ℝ, (∀ t, (⟨U.rotation, t⟩ : Pose ℝ).isClose U tolerance = true →
      (⟨U.rotation, t⟩ : Pose ℝ).Within tolerance U) ↔ U.translation = .zero := by
  refine ⟨isClose_iff h, fun T U hwithin => ⟨isClose_of_within h hwithin, ?_⟩, isClose_both_iff h,
    within_of_isClose_iff h⟩
  exact isClose_of_within h (hwithin.swap.imp fun b a hab => (abs_sub_comm b a).trans_le hab)

end Tolerance

/-- A pose that stands ahead on the first axis. -/
noncomputable def ahead (x : ℝ) : Pose ℝ := ⟨.identity, ⟨x, 0, 0⟩⟩

theorem entrywise_ahead {R : ℝ → ℝ → Prop} (hzero : R 0 0) (hone : R 1 1) (x y : ℝ) :
    Entrywise R (ahead x) (ahead y) ↔ R x y := by
  simp [Entrywise.iff_rows, ahead, Mat3.identity, hzero, hone]

/-- Two units are too far apart near the origin, and close where the coordinates are large. -/
theorem isClose_allows_ahead :
    (0 : ℝ) ≤ 1 ∧ (ahead 200001).isClose (ahead 199999) 1 = true ∧
    ¬ (ahead 200001).Within 1 (ahead 199999) ∧ (ahead 2).isClose (ahead 0) 1 ≠ true := by
  have htolerance : (0 : ℝ) ≤ 1 := zero_le_one
  obtain ⟨hiff, -⟩ := isClose_allows htolerance
  have hallows (x y : ℝ) :
      (ahead x).isClose (ahead y) 1 = true ↔ |x - y| ≤ 1 + (10 ^ 5)⁻¹ * |y| :=
    (hiff _ _).trans (entrywise_ahead (by norm_num) (by norm_num) x y)
  refine ⟨htolerance, (hallows _ _).mpr (by norm_num), ?_, mt (hallows _ _).mp (by norm_num)⟩
  rw [Within, entrywise_ahead (by norm_num) (by norm_num)]
  norm_num

/-- Poses that are two units apart are close without any tolerance, in one order and not in the
other, and nearer to the origin they are not. -/
theorem isClose_zero_ahead :
    (ahead 199999).isClose (ahead 200001) 0 = true ∧ ¬ (ahead 199999).Within 0 (ahead 200001) ∧
    (ahead 200001).isClose (ahead 199999) 0 ≠ true ∧ (ahead 0).isClose (ahead 2) 0 ≠ true := by
  have hallows (x y : ℝ) :
      (ahead x).isClose (ahead y) 0 = true ↔ |x - y| ≤ allowance 0 y :=
    (isClose_iff le_rfl _ _).trans
      (entrywise_ahead (by simp [allowance]) (by norm_num [allowance]) x y)
  simp only [Ne, hallows, allowance]
  rw [Within, entrywise_ahead (by simp) (by simp)]
  norm_num

end Pose

end LiveMap
