import LiveMap.Proofs.Reals
import Mathlib.Data.Prod.Lex

/-!
# Comparable scalars

Scalars that can be compared are in a linear order of their values: real numbers, and binary64
numbers but the undefined one. What depends on comparisons only, such as the order of samples, holds
of rounded stamps as it holds of exact ones.

## Main definitions

* `Scalar.Ordered`: the laws of comparison, with instances for real and for binary64 numbers.
* `Binary64.place?`: where a binary64 number stands among all.

## Main statements

* `Binary64.le_iff`: binary64 numbers are compared by their places.
* `Binary64.scalar_isFinite_iff`: which binary64 numbers count as bounded.
-/

namespace LiveMap

namespace Scalar

/-- The comparable scalars are in a linear order, up to scalars of one value. -/
class Ordered (K : Type) [Scalar K] : Prop where
  isNumber_of_le {x y : K} (h : x ≤ y) : IsNumber x ∧ IsNumber y
  le_trans {x y z : K} (hxy : x ≤ y) (hyz : y ≤ z) : x ≤ z
  le_total {x y : K} (hx : IsNumber x) (hy : IsNumber y) : x ≤ y ∨ y ≤ x
  lt_iff {x y : K} : x < y ↔ x ≤ y ∧ ¬ y ≤ x

section Laws

variable {K : Type} [Scalar K] [Ordered K] {x y z : K}

theorem le_of_lt (h : x < y) : x ≤ y := (Ordered.lt_iff.mp h).1

theorem not_le_of_lt (h : x < y) : ¬ y ≤ x := (Ordered.lt_iff.mp h).2

theorem not_lt_of_le (h : x ≤ y) : ¬ y < x := fun hlt => not_le_of_lt hlt h

theorem lt_of_not_le (hx : IsNumber x) (hy : IsNumber y) (h : ¬ y ≤ x) : x < y :=
  Ordered.lt_iff.mpr ⟨(Ordered.le_total hx hy).resolve_right h, h⟩

theorem le_of_not_lt (hx : IsNumber x) (hy : IsNumber y) (h : ¬ y < x) : x ≤ y := by
  by_contra hle
  exact h (lt_of_not_le hy hx hle)

theorem lt_of_lt_of_le (hxy : x < y) (hyz : y ≤ z) : x < z :=
  Ordered.lt_iff.mpr ⟨Ordered.le_trans (le_of_lt hxy) hyz,
    fun hzx => not_le_of_lt hxy (Ordered.le_trans hyz hzx)⟩

theorem lt_of_le_of_lt (hxy : x ≤ y) (hyz : y < z) : x < z :=
  Ordered.lt_iff.mpr ⟨Ordered.le_trans hxy (le_of_lt hyz),
    fun hzx => not_le_of_lt hyz (Ordered.le_trans hzx hxy)⟩

end Laws

/-! ## Real numbers -/

theorem isNumber_real (x : ℝ) : IsNumber x := le_refl x

instance : Ordered ℝ where
  isNumber_of_le _ := ⟨isNumber_real _, isNumber_real _⟩
  le_trans hxy hyz := hxy.trans hyz
  le_total {x y} _ _ := total_of (· ≤ ·) x y
  lt_iff := lt_iff_le_not_ge

end Scalar

/-! ## Binary64 numbers -/

namespace Binary64

open Float.Model

/-- Where a number stands among all: by its sign first, then by its exponent, then by its
significand. An undefined number has no place, and the two zeros share one. -/
def place? : UnpackedFloat → Option (ℤ ×ₗ ℤ ×ₗ ℤ)
  | .notANumber => none
  | .infinity .negative => some (toLex (-2, toLex (0, 0)))
  | .finite .negative significand exponent _ => some (toLex (-1, toLex (-exponent, -significand)))
  | .zero _ => some (toLex (0, toLex (0, 0)))
  | .finite .positive significand exponent _ => some (toLex (1, toLex (exponent, significand)))
  | .infinity .positive => some (toLex (2, toLex (0, 0)))

theorem compare_neg_neg (a b : ℤ) : compare (-a) (-b) = (compare a b).swap := by
  rcases lt_trichotomy a b with h | rfl | h
  · rw [compare_lt_iff_lt.mpr h, compare_gt_iff_gt.mpr (neg_lt_neg h)]
    rfl
  · simp
  · rw [compare_gt_iff_gt.mpr h, compare_lt_iff_lt.mpr (neg_lt_neg h)]
    rfl

theorem compare_natCast (m n : ℕ) : compare (m : ℤ) (n : ℤ) = compare m n := by
  rcases lt_trichotomy m n with h | rfl | h
  · rw [compare_lt_iff_lt.mpr h, compare_lt_iff_lt.mpr (Int.ofNat_lt.mpr h)]
  · simp
  · rw [compare_gt_iff_gt.mpr h, compare_gt_iff_gt.mpr (Int.ofNat_lt.mpr h)]

/-- The places tell how two numbers compare. -/
theorem compare_eq (x y : UnpackedFloat) :
    x.compare y = (place? x).bind fun a => (place? y).map fun b => compare a b := by
  rcases x with ⟨_ | _⟩ | _ | _ | ⟨_ | _, m, e, _⟩ <;>
    rcases y with ⟨_ | _⟩ | _ | _ | ⟨_ | _, n, f, _⟩
  case finite.negative.finite.negative =>
    have hparts : ((compare e f).then (compare m n)).swap =
        (compare (-e) (-f)).then (compare (-(m : ℤ)) (-(n : ℤ))) := by
      rw [compare_neg_neg, compare_neg_neg, compare_natCast, Ordering.swap_then]
    exact congrArg some hparts
  case finite.positive.finite.positive =>
    have hparts : (compare e f).then (compare m n) =
        (compare e f).then (compare (m : ℤ) (n : ℤ)) := by
      rw [compare_natCast]
    exact congrArg some hparts
  all_goals rfl

theorem le_iff {x y : Float} : x ≤ y ↔
    ∃ a b, place? x.toModel.unpack = some a ∧ place? y.toModel.unpack = some b ∧ a ≤ b := by
  have hcompare : x ≤ y ↔ (x.toModel.unpack.compare y.toModel.unpack).any (·.isLE) = true :=
    decide_eq_true_iff
  rw [hcompare, compare_eq]
  cases place? x.toModel.unpack <;> cases place? y.toModel.unpack <;>
    simp [Ordering.isLE_iff_ne_gt, compare_le_iff_le]

theorem lt_iff {x y : Float} : x < y ↔
    ∃ a b, place? x.toModel.unpack = some a ∧ place? y.toModel.unpack = some b ∧ a < b := by
  have hcompare : x < y ↔ (x.toModel.unpack.compare y.toModel.unpack == some .lt) = true :=
    decide_eq_true_iff
  rw [hcompare, compare_eq]
  cases place? x.toModel.unpack <;> cases place? y.toModel.unpack <;>
    simp [compare_lt_iff_lt]

theorem isNumber_iff {x : Float} :
    Scalar.IsNumber x ↔ ∃ a, place? x.toModel.unpack = some a := by
  refine le_iff.trans ⟨fun ⟨a, _, ha, _⟩ => ⟨a, ha⟩, fun ⟨a, ha⟩ => ⟨a, a, ha, ha, le_refl a⟩⟩

theorem sub_self_eq (u : UnpackedFloat) :
    u.sub .binary64 u = if u.isFinite then .zero .positive else .notANumber := by
  cases u with
  | infinity sign => cases sign <;> rfl
  | notANumber => rfl
  | zero sign => cases sign <;> rfl
  | finite sign significand exponent _ =>
    let aligned := (UnpackedFloat.decreaseExponent significand exponent (min exponent exponent)).1
    change UnpackedFloat.normalize .binary64 (sign.apply aligned - sign.apply aligned)
      (min exponent exponent) .positive = .zero .positive
    rw [sub_self]
    rfl

/-- The distance of a binary64 number to itself is defined just when the number is finite. -/
theorem scalar_isFinite_iff {x : Float} : Scalar.IsFinite x ↔ x.isFinite = true := by
  have hsub : (x - x).toModel.unpack =
      (pack (x.toModel.unpack.sub .binary64 x.toModel.unpack)).unpack := rfl
  have hfinite : x.isFinite = x.toModel.unpack.isFinite := rfl
  rw [Scalar.IsFinite, isNumber_iff, hsub, sub_self_eq, hfinite]
  cases x.toModel.unpack.isFinite with
  | true =>
    have hzero : (pack (.zero .positive)).unpack = .zero .positive := rfl
    rw [if_pos rfl, hzero]
    exact iff_of_true ⟨_, rfl⟩ rfl
  | false =>
    have hundefined : (pack .notANumber).unpack = .notANumber := rfl
    rw [if_neg Bool.false_ne_true, hundefined]
    exact iff_of_false (fun ⟨_, ha⟩ => nomatch ha) Bool.false_ne_true

end Binary64

open Binary64 in
instance : Scalar.Ordered Float where
  isNumber_of_le h := by
    obtain ⟨a, b, ha, hb, -⟩ := le_iff.mp h
    exact ⟨isNumber_iff.mpr ⟨a, ha⟩, isNumber_iff.mpr ⟨b, hb⟩⟩
  le_trans hxy hyz := by
    obtain ⟨a, b, ha, hb, hab⟩ := le_iff.mp hxy
    obtain ⟨b', c, hb', hc, hbc⟩ := le_iff.mp hyz
    obtain rfl : b = b' := Option.some.inj (hb.symm.trans hb')
    exact le_iff.mpr ⟨a, c, ha, hc, hab.trans hbc⟩
  le_total hx hy := by
    obtain ⟨a, ha⟩ := isNumber_iff.mp hx
    obtain ⟨b, hb⟩ := isNumber_iff.mp hy
    exact (le_total a b).imp (fun h => le_iff.mpr ⟨a, b, ha, hb, h⟩)
      fun h => le_iff.mpr ⟨b, a, hb, ha, h⟩
  lt_iff {x y} := by
    constructor
    · intro h
      obtain ⟨a, b, ha, hb, hab⟩ := lt_iff.mp h
      refine ⟨le_iff.mpr ⟨a, b, ha, hb, hab.le⟩, fun hyx => ?_⟩
      obtain ⟨b', a', hb', ha', hba⟩ := le_iff.mp hyx
      obtain rfl : a = a' := Option.some.inj (ha.symm.trans ha')
      obtain rfl : b = b' := Option.some.inj (hb.symm.trans hb')
      exact absurd hab (not_lt.mpr hba)
    · intro ⟨hxy, hyx⟩
      obtain ⟨a, b, ha, hb, hab⟩ := le_iff.mp hxy
      refine lt_iff.mpr ⟨a, b, ha, hb, lt_of_le_of_ne hab fun heq => hyx ?_⟩
      exact le_iff.mpr ⟨b, a, hb, ha, heq.ge⟩

end LiveMap
