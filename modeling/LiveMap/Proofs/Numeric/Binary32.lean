import LiveMap.Proofs.Numeric.Binary64
import LiveMap.Proofs.Numeric.Grid

/-!
# Rounding to binary32 and back

A binary64 number is packed as the binary32 number nearest to it, and every binary32 number comes
back as the binary64 number of the same value.

## Main definitions

* `Binary32.RoundsTo`: which binary32 number a number is rounded to, in terms of real values.

## Main statements

* `Binary32.roundsTo_single`: packing rounds to nearest, ties to even, and overflows to infinity.
* `Binary32.toBinary32_single`: what has been rounded once stays as it is.
* `Binary32.toBinary32_ofBinary32`: packing undoes unpacking.
-/

namespace LiveMap.Binary32

/-! ## Bit patterns -/

/-- The magnitude bits. -/
def rank (bits : UInt32) : Nat := bits.toNat % (1 <<< 31)

def sign (bits : UInt32) : Float.Model.UnpackedFloat.Sign :=
  if 1 <<< 31 ≤ bits.toNat then .negative else .positive

theorem point_eq (rank : Nat) :
    point rank =
      if rank >>> 23 = 0 then (rank : ℝ) * 2 ^ (-149 : ℤ)
      else ((1 <<< 23 + rank % (1 <<< 23) : ℕ) : ℝ) * 2 ^ (((rank >>> 23 : ℕ) : ℤ) - 150) := by
  by_cases hzero : rank >>> 23 = 0
  · rw [if_pos hzero, point, Nat.cast_ofNat, grid, if_pos hzero]
  · obtain ⟨k, hk⟩ := Nat.exists_eq_succ_of_ne_zero hzero
    have hrank : rank = k <<< 23 + (1 <<< 23 + rank % (1 <<< 23)) := by
      simp only [Nat.reduceShiftLeft]
      omega
    have hlt : 1 <<< 23 + rank % (1 <<< 23) ≤ 1 <<< 24 := by
      simp only [Nat.reduceShiftLeft]
      omega
    rw [if_neg hzero, hk]
    nth_rewrite 1 [hrank]
    rw [point_add hlt (.inr (by omega))]
    congr 2
    push_cast
    ring

theorem toReal_eq {bits : UInt32} (h : rank bits < topRank) :
    toReal bits = (sign bits).apply 1 * point (rank bits) := by
  have hlt := bits.toNat_lt
  have hfraction : bits.toNat % (1 <<< 23) = rank bits % (1 <<< 23) := by
    simp only [rank, Nat.reduceShiftLeft]
    omega
  have hexponent : bits.toNat >>> 23 % 256 = rank bits >>> 23 := by
    simp only [rank, Nat.reduceShiftLeft]
    omega
  have hlast : rank bits >>> 23 ≠ 255 := by
    rw [topRank] at h
    omega
  have hsmall : rank bits >>> 23 = 0 → rank bits % (1 <<< 23) = rank bits := by
    intro hzero
    exact Nat.mod_eq_of_lt (by omega)
  unfold toReal sign
  simp only [hfraction, hexponent, if_neg hlast, point_eq]
  by_cases hzero : rank bits >>> 23 = 0
  · simp only [hsmall hzero, if_pos hzero]
    split <;> simp [Float.Model.UnpackedFloat.Sign.apply]
  · simp only [if_neg hzero]
    split <;> simp [Float.Model.UnpackedFloat.Sign.apply]

/-! ## Rounding a pattern -/

theorem ofBinary64_eq (bits : UInt64) :
    ofBinary64 bits = UInt32.ofNat (bits.toNat >>> 63 <<< 31 +
      if Binary64.exponent bits = 2047 then
        if Binary64.fraction bits = 0 then topRank
        else 511 <<< 22 + Binary64.fraction bits >>> 29 % (1 <<< 22)
      else magnitude (Binary64.significand bits) (max (Binary64.exponent bits) 1)) := by
  unfold Binary64.significand ofBinary64
  change UInt32.ofNat (_ + if Binary64.exponent bits = 2047 then _
    else if Binary64.exponent bits = 0 then _ else _) = _
  by_cases hzero : Binary64.exponent bits = 0
  · simp only [hzero, if_true]
    rfl
  · rw [if_neg hzero, if_neg hzero, max_eq_left (by omega)]
    rfl

theorem exists_isNearest_ofBinary64 {bits : UInt64} (h : Binary64.exponent bits ≠ 2047) :
    ∃ nearest, IsNearest (Binary64.significand bits *
        2 ^ ((max (Binary64.exponent bits) 1 : ℕ) - 1075 : ℤ)) nearest ∧
      ofBinary64 bits = UInt32.ofNat (bits.toNat >>> 63 <<< 31 + min nearest topRank) := by
  have hsignificand : 897 ≤ max (Binary64.exponent bits) 1 →
      1 <<< 52 ≤ Binary64.significand bits := by
    intro hle
    exact Binary64.le_significand (by omega)
  obtain ⟨nearest, hnearest, hmagnitude⟩ :=
    exists_isNearest_magnitude (Binary64.significand_lt bits) hsignificand
  exact ⟨nearest, hnearest, by rw [ofBinary64_eq, if_neg h, hmagnitude]⟩

theorem rank_ofNat {s size : Nat} (hsize : size < 1 <<< 31) :
    rank (UInt32.ofNat (s <<< 31 + size)) = size := by
  simp only [rank, UInt32.toNat_ofNat', Nat.reduceShiftLeft] at *
  omega

theorem sign_ofNat (bits : UInt64) {size : Nat} (hsize : size < 1 <<< 31) :
    sign (UInt32.ofNat (bits.toNat >>> 63 <<< 31 + size)) = Binary64.sign bits := by
  have hlt := bits.toNat_lt
  simp only [sign, Binary64.sign, UInt32.toNat_ofNat', Nat.reduceShiftLeft] at *
  congr 1
  apply propext
  omega

theorem sign_ofBinary64 (bits : UInt64) : sign (ofBinary64 bits) = Binary64.sign bits := by
  by_cases h : Binary64.exponent bits = 2047
  · rw [ofBinary64_eq, if_pos h]
    apply sign_ofNat
    split
    · decide
    · simp only [Nat.reduceShiftLeft]
      omega
  · obtain ⟨nearest, -, hbits⟩ := exists_isNearest_ofBinary64 h
    rw [hbits]
    exact sign_ofNat bits (lt_of_le_of_lt (min_le_right _ _) (by decide))

theorem rank_ofBinary64 {bits : UInt64} (h : Binary64.exponent bits ≠ 2047) :
    ∃ nearest, IsNearest (Binary64.significand bits *
        2 ^ ((max (Binary64.exponent bits) 1 : ℕ) - 1075 : ℤ)) nearest ∧
      rank (ofBinary64 bits) = min nearest topRank := by
  obtain ⟨nearest, hnearest, hbits⟩ := exists_isNearest_ofBinary64 h
  refine ⟨nearest, hnearest, ?_⟩
  rw [hbits]
  exact rank_ofNat (lt_of_le_of_lt (min_le_right _ _) (by decide))

theorem rank_ofBinary64_of_infinite {bits : UInt64} (h : Binary64.exponent bits = 2047)
    (hfraction : Binary64.fraction bits = 0) : rank (ofBinary64 bits) = topRank := by
  rw [ofBinary64_eq, if_pos h, if_pos hfraction]
  exact rank_ofNat (by decide)

/-- The undefined patterns have the highest ranks. -/
def IsUndefined (bits : UInt32) : Prop := topRank < rank bits

instance (bits : UInt32) : Decidable (IsUndefined bits) := inferInstanceAs (Decidable (_ < _))

theorem isUndefined_ofBinary64 {bits : UInt64} (h : Binary64.IsUndefined bits) :
    IsUndefined (ofBinary64 bits) := by
  rw [IsUndefined, ofBinary64_eq, if_pos h.1, if_neg h.2, rank_ofNat, topRank]
  · simp only [Nat.reduceShiftLeft]
    omega
  · simp only [Nat.reduceShiftLeft]
    omega

/-! ## The way back -/

/-- The magnitude bits of the binary64 number of a rank. -/
def widened (rank : Nat) : Nat :=
  let fraction := rank % (1 <<< 23)
  if rank >>> 23 = 255 then
    if fraction = 0 then 2047 <<< 52 else 4095 <<< 51 + (fraction % (1 <<< 22)) <<< 29
  else if rank >>> 23 = 0 then
    if fraction = 0 then 0
    else (Nat.log2 fraction + 874) <<< 52 + (fraction <<< (52 - Nat.log2 fraction) - 1 <<< 52)
  else (rank >>> 23 + 896) <<< 52 + fraction <<< 29

theorem toBinary64_eq (bits : UInt32) :
    toBinary64 bits = UInt64.ofNat (bits.toNat >>> 31 <<< 63 + widened (rank bits)) := by
  have hlt := bits.toNat_lt
  have hfraction : bits.toNat % (1 <<< 23) = rank bits % (1 <<< 23) := by
    simp only [rank, Nat.reduceShiftLeft]
    omega
  have hexponent : bits.toNat >>> 23 % 256 = rank bits >>> 23 := by
    simp only [rank, Nat.reduceShiftLeft]
    omega
  unfold toBinary64 widened
  simp only [hfraction, hexponent]

/-- The leading digit moves to the place of the implicit one. -/
theorem shiftLeft_log2_bounds {n : Nat} (hzero : n ≠ 0) (hlt : n < 1 <<< 23) :
    1 <<< 52 ≤ n <<< (52 - n.log2) ∧ n <<< (52 - n.log2) < 1 <<< 53 := by
  have hlog : n.log2 < 23 := (Nat.log2_lt hzero).mpr hlt
  obtain ⟨hlow, hhigh⟩ := (Nat.log2_eq_iff hzero).mp (rfl : n.log2 = n.log2)
  have hpow : 0 < 2 ^ (52 - n.log2) := Nat.two_pow_pos _
  have hsum : n.log2 + (52 - n.log2) = 52 := by omega
  have hsum' : n.log2 + 1 + (52 - n.log2) = 53 := by omega
  rw [Nat.one_shiftLeft, Nat.one_shiftLeft, Nat.shiftLeft_eq]
  constructor
  · calc 2 ^ 52 = 2 ^ n.log2 * 2 ^ (52 - n.log2) := by rw [← pow_add, hsum]
      _ ≤ n * 2 ^ (52 - n.log2) := Nat.mul_le_mul_right _ hlow
  · calc n * 2 ^ (52 - n.log2) < 2 ^ (n.log2 + 1) * 2 ^ (52 - n.log2) :=
          Nat.mul_lt_mul_of_pos_right hhigh hpow
      _ = 2 ^ 53 := by rw [← pow_add, hsum']

theorem widened_of_finite {rank : Nat} (h : rank < topRank) :
    ∃ e f, e < 2047 ∧ f < 1 <<< 52 ∧ widened rank = e <<< 52 + f ∧
      ((if e = 0 then f else 1 <<< 52 + f : ℕ) : ℝ) * 2 ^ ((max e 1 : ℕ) - 1075 : ℤ) =
        point rank := by
  have hlast : rank >>> 23 < 255 := by
    rw [topRank] at h
    omega
  rw [widened, if_neg hlast.ne, point_eq]
  by_cases hfirst : rank >>> 23 = 0
  · have hsmall : rank < 1 <<< 23 := by omega
    have hfraction : rank % (1 <<< 23) = rank := Nat.mod_eq_of_lt hsmall
    rw [if_pos hfirst, if_pos hfirst, hfraction]
    by_cases hzero : rank = 0
    · rw [if_pos hzero]
      exact ⟨0, 0, by decide, by decide, rfl, by simp [hzero]⟩
    · have hlog : rank.log2 < 23 := (Nat.log2_lt hzero).mpr hsmall
      obtain ⟨hlow, hhigh⟩ := shiftLeft_log2_bounds hzero hsmall
      rw [if_neg hzero]
      refine ⟨rank.log2 + 874, rank <<< (52 - rank.log2) - 1 <<< 52, by omega, by omega, rfl, ?_⟩
      have hexponent : ((52 - rank.log2 : ℕ) : ℤ) + ((rank.log2 + 874 : ℕ) - 1075) = -149 := by
        omega
      rw [if_neg (by omega), max_eq_left (by omega), Nat.add_sub_cancel' hlow, Nat.shiftLeft_eq,
        Nat.cast_mul, Nat.cast_pow, Nat.cast_two, ← zpow_natCast, mul_assoc,
        ← zpow_add₀ two_ne_zero, hexponent]
  · have hfraction : rank % (1 <<< 23) < 1 <<< 23 := Nat.mod_lt _ (by decide)
    rw [if_neg hfirst, if_neg hfirst]
    refine ⟨rank >>> 23 + 896, (rank % (1 <<< 23)) <<< 29, by omega, by omega, rfl, ?_⟩
    have hshift : 1 <<< 52 + (rank % (1 <<< 23)) <<< 29 =
        (1 <<< 23 + rank % (1 <<< 23)) * 2 ^ 29 := by omega
    have hexponent (n : ℕ) : ((29 : ℕ) : ℤ) + ((n + 896 : ℕ) - 1075) = n - 150 := by omega
    rw [if_neg (by omega), max_eq_left (by omega), hshift, Nat.cast_mul, Nat.cast_pow,
      Nat.cast_two, ← zpow_natCast, mul_assoc, ← zpow_add₀ two_ne_zero, hexponent]

theorem widened_topRank : widened topRank = 2047 <<< 52 := rfl

theorem widened_of_undefined {rank : Nat} (h : topRank < rank) (hlt : rank < 1 <<< 31) :
    ∃ f, 0 < f ∧ f < 1 <<< 52 ∧ widened rank = 2047 <<< 52 + f := by
  have hlast : rank >>> 23 = 255 := by
    rw [topRank] at h
    omega
  have hfraction : rank % (1 <<< 23) ≠ 0 := by
    simp only [topRank, Nat.reduceShiftLeft] at *
    omega
  rw [widened, if_pos hlast, if_neg hfraction]
  refine ⟨1 <<< 51 + (rank % (1 <<< 23) % (1 <<< 22)) <<< 29, by omega, ?_, by omega⟩
  simp only [Nat.reduceShiftLeft]
  omega

theorem widened_lt {rank : Nat} (h : rank < 1 <<< 31) : widened rank < 1 <<< 63 := by
  rcases lt_trichotomy rank topRank with hlt | rfl | hgt
  · obtain ⟨e, f, he, hf, hfields, -⟩ := widened_of_finite hlt
    omega
  · decide
  · obtain ⟨f, -, hf, hfields⟩ := widened_of_undefined hgt h
    omega

theorem rank_lt (bits : UInt32) : rank bits < 1 <<< 31 := Nat.mod_lt _ (by decide)

theorem sign_toBinary64 (bits : UInt32) : Binary64.sign (toBinary64 bits) = sign bits := by
  have hlt := bits.toNat_lt
  have hsize := widened_lt (rank_lt bits)
  rw [toBinary64_eq]
  simp only [sign, Binary64.sign, UInt64.toNat_ofNat', Nat.reduceShiftLeft] at *
  congr 1
  apply propext
  omega

theorem fields_toBinary64 {bits : UInt32} {e f : Nat} (he : e < 2048) (hf : f < 1 <<< 52)
    (h : widened (rank bits) = e <<< 52 + f) :
    Binary64.exponent (toBinary64 bits) = e ∧ Binary64.fraction (toBinary64 bits) = f := by
  rw [toBinary64_eq, h]
  simp only [Binary64.exponent, Binary64.fraction, UInt64.toNat_ofNat', Nat.reduceShiftLeft] at *
  omega

theorem toBinary64_of_finite {bits : UInt32} (h : rank bits < topRank) :
    Binary64.exponent (toBinary64 bits) ≠ 2047 ∧
      (Binary64.significand (toBinary64 bits) : ℝ) *
        2 ^ ((max (Binary64.exponent (toBinary64 bits)) 1 : ℕ) - 1075 : ℤ) = point (rank bits) := by
  obtain ⟨e, f, he, hf, hfields, hpoint⟩ := widened_of_finite h
  obtain ⟨hexponent, hfraction⟩ := fields_toBinary64 (by omega) hf hfields
  rw [Binary64.significand, hexponent, hfraction]
  exact ⟨he.ne, hpoint⟩

theorem toBinary64_of_topRank {bits : UInt32} (h : rank bits = topRank) :
    Binary64.exponent (toBinary64 bits) = 2047 ∧ Binary64.fraction (toBinary64 bits) = 0 :=
  fields_toBinary64 (by decide) (by decide) (by rw [h, widened_topRank, add_zero])

theorem isUndefined_toBinary64 {bits : UInt32} (h : IsUndefined bits) :
    Binary64.IsUndefined (toBinary64 bits) := by
  obtain ⟨f, hpos, hf, hfields⟩ := widened_of_undefined h (rank_lt bits)
  obtain ⟨hexponent, hfraction⟩ := fields_toBinary64 (by decide) hf hfields
  exact ⟨hexponent, by omega⟩

theorem not_isUndefined_toBinary64 {bits : UInt32} (h : ¬ IsUndefined bits) :
    ¬ Binary64.IsUndefined (toBinary64 bits) := by
  rintro ⟨hexponent, hfraction⟩
  rcases Nat.lt_or_eq_of_le (not_lt.mp h) with hlt | heq
  · exact (toBinary64_of_finite hlt).1 hexponent
  · exact hfraction (toBinary64_of_topRank heq).2

theorem eq_of_rank_sign {a b : UInt32} (hrank : rank a = rank b) (hsign : sign a = sign b) :
    a = b := by
  have ha := a.toNat_lt
  have hb := b.toNat_lt
  have hiff : 1 <<< 31 ≤ a.toNat ↔ 1 <<< 31 ≤ b.toNat := by
    unfold sign at hsign
    split at hsign <;> split at hsign <;> first | omega | cases hsign
  apply UInt32.toNat_inj.mp
  simp only [rank, Nat.reduceShiftLeft] at *
  omega

/-- A number that has the shorter form already is its own nearest one. -/
theorem ofBinary64_toBinary64 {bits : UInt32} (h : ¬ IsUndefined bits) :
    ofBinary64 (toBinary64 bits) = bits := by
  refine eq_of_rank_sign ?_ ((sign_ofBinary64 _).trans (sign_toBinary64 bits))
  rcases Nat.lt_or_eq_of_le (not_lt.mp h) with hlt | heq
  · obtain ⟨hexponent, hpoint⟩ := toBinary64_of_finite hlt
    obtain ⟨nearest, hnearest, hrank⟩ := rank_ofBinary64 hexponent
    rw [hpoint] at hnearest
    rw [hrank, eq_of_isNearest_point hnearest, min_eq_left hlt.le]
  · obtain ⟨hexponent, hfraction⟩ := toBinary64_of_topRank heq
    rw [rank_ofBinary64_of_infinite hexponent hfraction, heq]

/-! ## Numbers -/

def IsFinite (bits : UInt32) : Prop := rank bits < topRank

/-- The second number is what the first one is in binary32: the nearest number, of two that are
equally near the one with even bits, and an infinite one from half a step past the last finite
number on. Undefined numbers stay undefined. -/
structure RoundsTo (x y : Float) : Prop where
  undefined : y.isNaN = x.isNaN
  sign : x.isNaN = false → Binary64.sign y.toBits = Binary64.sign x.toBits
  nearest : x.isFinite = true → |Binary64.value x| < 2 ^ (128 : ℤ) - 2 ^ (103 : ℤ) →
    y.isFinite = true ∧ ∃ bits, IsFinite bits ∧ Binary64.value y = toReal bits ∧
      ∀ other, IsFinite other →
        |Binary64.value x - toReal bits| ≤ |Binary64.value x - toReal other| ∧
        (|Binary64.value x - toReal bits| = |Binary64.value x - toReal other| →
          toReal other = toReal bits ∨ Even bits.toNat)
  overflow : (x.isInf = true ∨
      x.isFinite = true ∧ 2 ^ (128 : ℤ) - 2 ^ (103 : ℤ) ≤ |Binary64.value x|) → y.isInf = true

theorem point_nonneg (rank : Nat) : 0 ≤ point rank := by
  unfold point
  positivity

theorem point_zero : point 0 = 0 := by
  simp [point, grid]

/-- A point of the other sign is at least as far off, and as near as the nearest only at zero. -/
theorem IsNearest.across {x : ℝ} {rank : Nat} (hx : 0 ≤ x) (h : IsNearest x rank) (other : Nat) :
    |x - point rank| ≤ |x + point other| ∧
      (|x - point rank| = |x + point other| → Even rank) := by
  have hpoint := point_nonneg rank
  have hother := point_nonneg other
  obtain ⟨hle, htie⟩ := h other
  have hfar : |x - point other| ≤ |x + point other| := by
    rw [abs_of_nonneg (add_nonneg hx hother), abs_le]
    constructor <;> linarith
  refine ⟨hle.trans hfar, fun heq => ?_⟩
  rcases htie (le_antisymm hle (heq ▸ hfar)) with rfl | heven
  · -- Both differ from zero only when the sum is larger than the difference.
    rw [abs_of_nonneg (add_nonneg hx hother)] at heq
    have hzero : other = 0 := by
      rcases abs_choice (x - point other) with hsign | hsign
      · have hpoint : point other = point 0 := by
          rw [point_zero]
          linarith
        exact strictMono_point.injective hpoint
      · obtain rfl : x = point 0 := by
          rw [point_zero]
          linarith
        exact eq_of_isNearest_point h
    rw [hzero]
    exact Even.zero
  · exact heven

theorem IsNearest.signed {x : ℝ} {rank : Nat} (hx : 0 ≤ x) (h : IsNearest x rank)
    (s t : Float.Model.UnpackedFloat.Sign) (other : Nat) :
    |(s.apply 1 : ℝ) * x - s.apply 1 * point rank| ≤ |s.apply 1 * x - t.apply 1 * point other| ∧
      (|(s.apply 1 : ℝ) * x - s.apply 1 * point rank| =
          |s.apply 1 * x - t.apply 1 * point other| →
        (t.apply 1 : ℝ) * point other = s.apply 1 * point rank ∨ Even rank) := by
  obtain ⟨hle, htie⟩ := h other
  obtain ⟨hacross, hacrossTie⟩ := h.across hx other
  have hneg (p : ℝ) : |-x + p| = |x - p| := by rw [neg_add_eq_sub, abs_sub_comm]
  have hnegAcross (p : ℝ) : |-x - p| = |x + p| := by rw [← neg_add', abs_neg]
  cases s <;> cases t <;>
    simp only [Float.Model.UnpackedFloat.Sign.apply, Int.cast_neg, Int.cast_one, neg_mul, one_mul,
      hneg, hnegAcross, sub_neg_eq_add]
  case negative.negative => exact ⟨hle, fun heq => (htie heq).imp_left fun h => by rw [h]⟩
  case positive.positive => exact ⟨hle, fun heq => (htie heq).imp_left fun h => by rw [h]⟩
  all_goals exact ⟨hacross, fun heq => .inr (hacrossTie heq)⟩

theorem not_isUndefined_ofBinary64 {bits : UInt64} (h : ¬ Binary64.IsUndefined bits) :
    ¬ IsUndefined (ofBinary64 bits) := by
  rw [IsUndefined, not_lt]
  by_cases hexponent : Binary64.exponent bits = 2047
  · have hfraction : Binary64.fraction bits = 0 := by
      by_contra hne
      exact h ⟨hexponent, hne⟩
    rw [rank_ofBinary64_of_infinite hexponent hfraction]
  · obtain ⟨nearest, -, hrank⟩ := rank_ofBinary64 hexponent
    rw [hrank]
    exact min_le_right _ _

theorem toBits_ofBinary32 {bits : UInt32} (h : ¬ IsUndefined bits) :
    (Scalar.ofBinary32 bits : Float).toBits = toBinary64 bits :=
  Binary64.toBits_ofBits (not_isUndefined_toBinary64 h)

theorem isUndefined_ofBinary32 {bits : UInt32} (h : IsUndefined bits) :
    Binary64.IsUndefined (Scalar.ofBinary32 bits : Float).toBits :=
  Binary64.isUndefined_ofBits (isUndefined_toBinary64 h)

/-- Unpacking is exact. -/
theorem value_ofBinary32 {bits : UInt32} (h : IsFinite bits) :
    (Scalar.ofBinary32 bits : Float).isFinite = true ∧
      Binary64.value (Scalar.ofBinary32 bits) = toReal bits := by
  obtain ⟨hexponent, hpoint⟩ := toBinary64_of_finite h
  have hbits := toBits_ofBinary32 (not_lt.mpr (le_of_lt h))
  refine ⟨(Binary64.isFinite_iff _).mpr (hbits ▸ hexponent), ?_⟩
  rw [Binary64.value_eq (hbits ▸ hexponent), hbits, hpoint, toReal_eq h, Binary64.factor,
    sign_toBinary64]

theorem isInf_ofBinary32 {bits : UInt32} (h : rank bits = topRank) :
    (Scalar.ofBinary32 bits : Float).isInf = true := by
  rw [Binary64.isInf_iff, toBits_ofBinary32 (not_lt.mpr h.le)]
  exact toBinary64_of_topRank h

/-! ## Rounding numbers -/

theorem sign_single {x : Float} (h : ¬ Binary64.IsUndefined x.toBits) :
    Binary64.sign (Scalar.single x).toBits = Binary64.sign x.toBits := by
  have hbits := toBits_ofBinary32 (not_isUndefined_ofBinary64 h)
  exact (congrArg Binary64.sign hbits).trans ((sign_toBinary64 _).trans (sign_ofBinary64 _))

/-- The magnitude of a finite number goes to the nearest point, up to infinity. -/
theorem exists_isNearest_abs {x : Float} (h : x.isFinite = true) :
    ∃ nearest, IsNearest |Binary64.value x| nearest ∧
      rank (Scalar.toBinary32 x) = min nearest topRank ∧
      Binary64.value x = Binary64.factor x.toBits * |Binary64.value x| := by
  have hexponent := (Binary64.isFinite_iff x).mp h
  obtain ⟨nearest, hnearest, hrank⟩ := rank_ofBinary64 hexponent
  have hvalue := Binary64.value_eq hexponent
  have habs : |Binary64.value x| = Binary64.significand x.toBits *
      2 ^ ((max (Binary64.exponent x.toBits) 1 : ℕ) - 1075 : ℤ) := by
    have hfactor : |(Binary64.factor x.toBits : ℝ)| = 1 := by
      unfold Binary64.factor
      cases Binary64.sign x.toBits <;> simp [Float.Model.UnpackedFloat.Sign.apply]
    rw [hvalue, abs_mul, hfactor, one_mul]
    exact abs_of_nonneg (by positivity)
  exact ⟨nearest, habs ▸ hnearest, hrank, habs ▸ hvalue⟩

theorem nearest_single {x : Float} (h : x.isFinite = true)
    (hlt : |Binary64.value x| < 2 ^ (128 : ℤ) - 2 ^ (103 : ℤ)) :
    (Scalar.single x).isFinite = true ∧ ∃ bits, IsFinite bits ∧
      Binary64.value (Scalar.single x) = toReal bits ∧
      ∀ other, IsFinite other →
        |Binary64.value x - toReal bits| ≤ |Binary64.value x - toReal other| ∧
        (|Binary64.value x - toReal bits| = |Binary64.value x - toReal other| →
          toReal other = toReal bits ∨ Even bits.toNat) := by
  obtain ⟨nearest, hnearest, hrank, hvalue⟩ := exists_isNearest_abs h
  have hnearestLt : nearest < topRank := (lt_topRank_iff hnearest).mpr hlt
  rw [min_eq_left hnearestLt.le] at hrank
  have hfinite : IsFinite (Scalar.toBinary32 x) := hrank.trans_lt hnearestLt
  obtain ⟨hsingle, hsame⟩ := value_ofBinary32 hfinite
  refine ⟨hsingle, Scalar.toBinary32 x, hfinite, hsame, fun other hother => ?_⟩
  have hsign : sign (Scalar.toBinary32 x) = Binary64.sign x.toBits := sign_ofBinary64 _
  have hsigned := hnearest.signed (abs_nonneg _) (Binary64.sign x.toBits) (sign other) (rank other)
  rw [Binary64.factor] at hvalue
  rw [toReal_eq hfinite, toReal_eq hother, hsign, hrank, hvalue]
  refine ⟨hsigned.1, fun heq => (hsigned.2 heq).imp_right fun heven => ?_⟩
  have hparity : (Scalar.toBinary32 x).toNat % 2 = nearest % 2 := by
    simp only [rank, Nat.reduceShiftLeft] at hrank
    omega
  rw [Nat.even_iff, hparity]
  exact Nat.even_iff.mp heven

theorem overflow_single {x : Float} (h : x.isFinite = true)
    (hle : 2 ^ (128 : ℤ) - 2 ^ (103 : ℤ) ≤ |Binary64.value x|) :
    (Scalar.single x).isInf = true := by
  obtain ⟨nearest, hnearest, hrank, -⟩ := exists_isNearest_abs h
  have hnearestLe : topRank ≤ nearest :=
    not_lt.mp (mt (lt_topRank_iff hnearest).mp (not_lt.mpr hle))
  rw [min_eq_right hnearestLe] at hrank
  exact isInf_ofBinary32 hrank

theorem isUndefined_single_iff (x : Float) :
    Binary64.IsUndefined (Scalar.single x).toBits ↔ Binary64.IsUndefined x.toBits := by
  constructor
  · intro h
    by_contra hx
    have hpacked := not_isUndefined_ofBinary64 hx
    have hbits := toBits_ofBinary32 hpacked
    exact not_isUndefined_toBinary64 hpacked (hbits ▸ h)
  · exact fun h => isUndefined_ofBinary32 (isUndefined_ofBinary64 h)

theorem isInf_single {x : Float} (h : x.isInf = true) : (Scalar.single x).isInf = true := by
  obtain ⟨hexponent, hfraction⟩ := (Binary64.isInf_iff x).mp h
  exact isInf_ofBinary32 (rank_ofBinary64_of_infinite hexponent hfraction)

/-- Packing a number and unpacking it rounds it. -/
theorem roundsTo_single (x : Float) : RoundsTo x (Scalar.single x) where
  undefined := by
    rw [Bool.eq_iff_iff, Binary64.isNaN_iff, Binary64.isNaN_iff]
    exact isUndefined_single_iff x
  sign h := sign_single fun hundefined => by
    rw [(Binary64.isNaN_iff x).mpr hundefined] at h
    cases h
  nearest := nearest_single
  overflow h := h.elim isInf_single fun h => overflow_single h.1 h.2

/-- What has been rounded stays as it is. -/
theorem toBinary32_ofBinary32 {bits : UInt32} (h : ¬ IsUndefined bits) :
    Scalar.toBinary32 (Scalar.ofBinary32 bits : Float) = bits := by
  change ofBinary64 (Scalar.ofBinary32 bits : Float).toBits = bits
  rw [toBits_ofBinary32 h, ofBinary64_toBinary64 h]

theorem toBinary32_single (x : Float) :
    Scalar.toBinary32 (Scalar.single x) = Scalar.toBinary32 x := by
  by_cases hundefined : Binary64.IsUndefined x.toBits
  · have hsame : (Scalar.single x).toBits = x.toBits :=
      Binary64.toBits_eq_of_isUndefined
        (isUndefined_ofBinary32 (isUndefined_ofBinary64 hundefined)) hundefined
    exact congrArg ofBinary64 hsame
  · exact toBinary32_ofBinary32 (not_isUndefined_ofBinary64 hundefined)

end LiveMap.Binary32
