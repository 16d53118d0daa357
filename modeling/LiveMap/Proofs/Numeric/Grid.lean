import LiveMap.Numeric.Binary32
import LiveMap.Proofs.Reals

/-!
# The grid of binary32 magnitudes

The magnitudes that binary32 numbers have, counted upwards, form a grid whose steps double from one
exponent to the next. Rounding a significand to its place finds the nearest point of that grid.

## Main definitions

* `Binary32.point`: the magnitude of a rank, past the last finite one as well.
* `Binary32.IsNearest`: the rank of the nearest point, ties to even.

## Main statements

* `Binary32.exists_isNearest_magnitude`: what rounding a significand yields.
* `Binary32.lt_topRank_iff`: which magnitudes round to a finite number.
-/

namespace LiveMap.Binary32

/-! ## The grid of magnitudes -/

/-- The magnitude of a rank, in units of the least positive number. Ranks count the magnitudes
upwards, past the last finite one as well. -/
def grid (rank : Nat) : Nat :=
  if rank >>> 23 = 0 then rank else (1 <<< 23 + rank % (1 <<< 23)) <<< (rank >>> 23 - 1)

noncomputable def point (rank : Nat) : ℝ := grid rank * ((2 : ℕ) : ℝ) ^ (-149 : ℤ)

theorem grid_add {k q : Nat} (hq : q ≤ 1 <<< 24) (h : k = 0 ∨ 1 <<< 23 ≤ q) :
    grid (k <<< 23 + q) = q <<< k := by
  by_cases hsmall : q < 1 <<< 23
  · obtain rfl : k = 0 := by omega
    have hrank : (0 <<< 23 + q) >>> 23 = 0 := by omega
    rw [grid, if_pos hrank]
    simp
  by_cases hlast : q = 1 <<< 24
  · have hrank : (k <<< 23 + q) >>> 23 = k + 2 := by omega
    have hfraction : (k <<< 23 + q) % (1 <<< 23) = 0 := by
      simp only [Nat.reduceShiftLeft] at *
      omega
    rw [grid, hrank, hfraction, if_neg (by omega), hlast, Nat.shiftLeft_eq, Nat.shiftLeft_eq]
    simp [pow_succ]
    omega
  · have hrank : (k <<< 23 + q) >>> 23 = k + 1 := by omega
    have hfraction : 1 <<< 23 + (k <<< 23 + q) % (1 <<< 23) = q := by
      simp only [Nat.reduceShiftLeft] at *
      omega
    rw [grid, hrank, hfraction, if_neg (by omega), Nat.add_sub_cancel]

/-- The digits of a magnitude and the power of two that scales them. -/
theorem exists_digits (rank : Nat) :
    ∃ k q, rank = k <<< 23 + q ∧ q < 1 <<< 24 ∧ (k = 0 ∨ 1 <<< 23 ≤ q) :=
  ⟨rank >>> 23 - 1, rank - (rank >>> 23 - 1) <<< 23, by omega, by omega, by omega⟩

theorem strictMono_grid : StrictMono grid := by
  apply strictMono_nat_of_lt_succ
  intro rank
  obtain ⟨k, q, rfl, hq, h⟩ := exists_digits rank
  have hnext : k <<< 23 + q + 1 = k <<< 23 + (q + 1) := by omega
  rw [hnext, grid_add hq.le h, grid_add hq (by omega), Nat.shiftLeft_eq, Nat.shiftLeft_eq]
  exact Nat.mul_lt_mul_of_pos_right (Nat.lt_succ_self q) (Nat.two_pow_pos k)

theorem strictMono_point : StrictMono point := by
  intro a b hab
  have hgrid : (grid a : ℝ) < grid b := by exact_mod_cast strictMono_grid hab
  exact mul_lt_mul_of_pos_right hgrid (by positivity)

theorem point_add {k q : Nat} (hq : q ≤ 1 <<< 24) (h : k = 0 ∨ 1 <<< 23 ≤ q) :
    point (k <<< 23 + q) = q * 2 ^ ((k : ℤ) - 149) := by
  rw [point, Nat.cast_ofNat, grid_add hq h, Nat.shiftLeft_eq, sub_eq_add_neg, zpow_add₀ two_ne_zero,
    zpow_natCast, ← mul_assoc]
  push_cast
  rfl

/-! ## The nearest point -/

/-- No point of the grid is nearer to a magnitude, and where another one is equally near the rank
is even. -/
def IsNearest (x : ℝ) (rank : Nat) : Prop :=
  ∀ other, |x - point rank| ≤ |x - point other| ∧
    (|x - point rank| = |x - point other| → other = rank ∨ Even rank)

theorem isNearest_of_below {x : ℝ} {rank : Nat} (hlow : point rank ≤ x)
    (hhigh : x ≤ point (rank + 1)) (hhalf : x - point rank ≤ point (rank + 1) - x)
    (htie : x - point rank = point (rank + 1) - x → Even rank) : IsNearest x rank := by
  intro other
  rw [abs_of_nonneg (sub_nonneg.mpr hlow)]
  rcases lt_trichotomy other rank with hlt | rfl | hgt
  · have hpoint := strictMono_point hlt
    rw [abs_of_nonneg (by linarith)]
    exact ⟨by linarith, fun h => by linarith⟩
  · rw [abs_of_nonneg (sub_nonneg.mpr hlow)]
    exact ⟨le_refl _, fun _ => .inl rfl⟩
  · have hpoint := strictMono_point.monotone (show rank + 1 ≤ other from hgt)
    rw [abs_of_nonpos (by linarith)]
    exact ⟨by linarith, fun h => .inr (htie (by linarith))⟩

theorem isNearest_of_above {x : ℝ} {rank : Nat} (hlow : point rank ≤ x)
    (hhigh : x ≤ point (rank + 1)) (hhalf : point (rank + 1) - x ≤ x - point rank)
    (htie : x - point rank = point (rank + 1) - x → Even (rank + 1)) :
    IsNearest x (rank + 1) := by
  intro other
  rw [abs_of_nonpos (sub_nonpos.mpr hhigh)]
  rcases lt_trichotomy other (rank + 1) with hlt | rfl | hgt
  · have hpoint := strictMono_point.monotone (Nat.le_of_lt_succ hlt)
    rw [abs_of_nonneg (by linarith)]
    exact ⟨by linarith, fun h => .inr (htie (by linarith))⟩
  · rw [abs_of_nonpos (sub_nonpos.mpr hhigh)]
    exact ⟨le_refl _, fun _ => .inl rfl⟩
  · have hpoint := strictMono_point hgt
    rw [abs_of_nonpos (by linarith)]
    exact ⟨by linarith, fun h => by linarith⟩

/-- Rounding a quotient to the nearest integer picks the nearest of two neighbouring points. -/
theorem isNearest_roundHalfEven {base n d : Nat} {unit : ℝ} (hunit : 0 < unit) (hd : 0 < d)
    (hbase : Even base) (hlow : point (base + n / d) = (n / d : ℕ) * (d * unit))
    (hhigh : point (base + n / d + 1) = (n / d + 1 : ℕ) * (d * unit)) :
    IsNearest (n * unit) (base + roundHalfEven n d) := by
  have hn : (n : ℝ) = d * (n / d : ℕ) + (n % d : ℕ) := by
    exact_mod_cast (Nat.div_add_mod n d).symm
  have hmod : ((n % d : ℕ) : ℝ) < d := by exact_mod_cast Nat.mod_lt n hd
  have hbelow : n * unit - point (base + n / d) = (n % d : ℕ) * unit := by
    rw [hlow, hn]
    ring
  have habove : point (base + n / d + 1) - n * unit = (d - (n % d : ℕ)) * unit := by
    rw [hhigh, hn]
    push_cast
    ring
  have hfirst : point (base + n / d) ≤ n * unit := by
    have : 0 ≤ ((n % d : ℕ) : ℝ) * unit := by positivity
    linarith
  have hsecond : n * unit ≤ point (base + n / d + 1) := by
    have : 0 ≤ ((d : ℝ) - (n % d : ℕ)) * unit := mul_nonneg (by linarith) hunit.le
    linarith
  have hgap : n * unit - point (base + n / d) - (point (base + n / d + 1) - n * unit) =
      (2 * (n % d : ℕ) - d) * unit := by
    rw [hbelow, habove]
    ring
  unfold roundHalfEven
  simp only
  rcases lt_trichotomy (2 * (n % d)) d with hlt | heq | hgt
  · have hneg : (2 * ((n % d : ℕ) : ℝ) - d) * unit < 0 :=
      mul_neg_of_neg_of_pos (sub_neg.mpr (by exact_mod_cast hlt)) hunit
    rw [if_pos hlt]
    exact isNearest_of_below hfirst hsecond (by linarith) (fun h => by linarith)
  · have hzero : (2 * ((n % d : ℕ) : ℝ) - d) * unit = 0 := by
      have hcast : 2 * ((n % d : ℕ) : ℝ) = d := by exact_mod_cast heq
      rw [hcast, sub_self, zero_mul]
    rw [if_neg (by omega), if_neg (by omega)]
    rcases Nat.even_or_odd (n / d) with heven | hodd
    · rw [Nat.even_iff.mp heven, add_zero]
      exact isNearest_of_below hfirst hsecond (by linarith) (fun _ => hbase.add heven)
    · rw [Nat.odd_iff.mp hodd, ← add_assoc]
      exact isNearest_of_above hfirst hsecond (by linarith)
        (fun _ => hbase.add_odd hodd |>.add_one)
  · have hpos : 0 < (2 * ((n % d : ℕ) : ℝ) - d) * unit :=
      mul_pos (sub_pos.mpr (by exact_mod_cast hgt)) hunit
    rw [if_neg (by omega), if_pos hgt, ← add_assoc]
    exact isNearest_of_above hfirst hsecond (by linarith) (fun h => by linarith)

/-- The rank of the infinite number; the grid goes on there as if exponents did. -/
def topRank : Nat := 255 <<< 23

theorem roundHalfEven_le (n d : Nat) : roundHalfEven n d ≤ n / d + 1 := by
  unfold roundHalfEven
  grind

/-- Rounding goes to the nearest point, and past the last finite one to infinity. -/
theorem exists_isNearest_magnitude {significand exponent : Nat} (hlt : significand < 1 <<< 53)
    (hle : 897 ≤ exponent → 1 <<< 52 ≤ significand) :
    ∃ rank, IsNearest (significand * 2 ^ ((exponent : ℤ) - 1075)) rank ∧
      magnitude significand exponent = min rank topRank := by
  have hunit : (0 : ℝ) < 2 ^ ((exponent : ℤ) - 1075) := by positivity
  unfold magnitude
  by_cases hexponent : 897 ≤ exponent
  · have hmin := hle hexponent
    obtain ⟨k, rfl⟩ := Nat.exists_eq_add_of_le hexponent
    have hstep : ((1 <<< 29 : ℕ) : ℝ) * 2 ^ (((897 + k : ℕ) : ℤ) - 1075) =
        2 ^ ((k : ℤ) - 149) := by
      rw [Nat.one_shiftLeft, Nat.cast_pow, ← zpow_natCast, Nat.cast_ofNat,
        ← zpow_add₀ two_ne_zero]
      congr 1
      push_cast
      ring
    have hquotient : 1 <<< 23 ≤ significand / (1 <<< 29) ∧ significand / (1 <<< 29) < 1 <<< 24 := by
      simp only [Nat.reduceShiftLeft] at *
      omega
    refine ⟨k <<< 23 + roundHalfEven significand (1 <<< 29), ?_, ?_⟩
    · apply isNearest_roundHalfEven hunit (by decide)
      · exact Nat.even_iff.mpr (by omega)
      · rw [hstep, point_add hquotient.2.le (.inr hquotient.1)]
      · rw [hstep, add_assoc, point_add hquotient.2 (.inr (by omega))]
    · rw [if_pos hexponent, Nat.add_sub_cancel_left, topRank]
  · have hstep : ((1 <<< (926 - exponent) : ℕ) : ℝ) * 2 ^ ((exponent : ℤ) - 1075) =
        2 ^ ((0 : ℕ) - 149 : ℤ) := by
      rw [Nat.one_shiftLeft, Nat.cast_pow, ← zpow_natCast, Nat.cast_ofNat,
        ← zpow_add₀ two_ne_zero]
      congr 1
      omega
    have hquotient : significand / (1 <<< (926 - exponent)) < 1 <<< 23 := by
      rw [Nat.one_shiftLeft, Nat.div_lt_iff_lt_mul (Nat.two_pow_pos _)]
      have hpow : 2 ^ 30 ≤ 2 ^ (926 - exponent) := Nat.pow_le_pow_right two_pos (by omega)
      calc significand < 1 <<< 23 * 2 ^ 30 := hlt
        _ ≤ 1 <<< 23 * 2 ^ (926 - exponent) := Nat.mul_le_mul_left _ hpow
    have hround := roundHalfEven_le significand (1 <<< (926 - exponent))
    refine ⟨0 <<< 23 + roundHalfEven significand (1 <<< (926 - exponent)), ?_, ?_⟩
    · apply isNearest_roundHalfEven hunit
      · rw [Nat.one_shiftLeft]
        exact Nat.two_pow_pos _
      · exact Nat.even_iff.mpr rfl
      · rw [hstep, point_add (by omega) (.inl rfl)]
      · rw [hstep, add_assoc, point_add (by omega) (.inl rfl)]
    · rw [if_neg hexponent, topRank, min_eq_left (by omega)]
      omega

theorem eq_of_isNearest_point {rank rank' : Nat} (h : IsNearest (point rank') rank) :
    rank = rank' := by
  have hdistance := (h rank').1
  rw [sub_self, abs_zero, abs_nonpos_iff, sub_eq_zero] at hdistance
  exact (strictMono_point.injective hdistance).symm

theorem point_topRank : point topRank = 2 ^ (128 : ℤ) := by
  have hrank : topRank = 253 <<< 23 + 1 <<< 24 := rfl
  rw [hrank, point_add (le_refl _) (.inr (by decide)), Nat.one_shiftLeft]
  norm_num

theorem point_pred_topRank : point (topRank - 1) = 2 ^ (128 : ℤ) - 2 ^ (104 : ℤ) := by
  have hrank : topRank - 1 = 253 <<< 23 + (1 <<< 24 - 1) := rfl
  rw [hrank, point_add (by decide) (.inr (by decide)), Nat.one_shiftLeft]
  norm_num

/-- Half a step past the last finite point is nearer to infinity, the even one of the two. -/
theorem lt_topRank_iff {x : ℝ} {rank : Nat} (h : IsNearest x rank) :
    rank < topRank ↔ x < 2 ^ (128 : ℤ) - 2 ^ (103 : ℤ) := by
  have hhalf : (2 : ℝ) ^ (104 : ℤ) = 2 ^ (103 : ℤ) + 2 ^ (103 : ℤ) := by norm_num
  have hpos : (0 : ℝ) < 2 ^ (103 : ℤ) := by positivity
  have htop := point_topRank
  have hlast := point_pred_topRank
  constructor
  · intro hrank
    have hpoint : point rank ≤ point (topRank - 1) :=
      strictMono_point.monotone (Nat.le_pred_of_lt hrank)
    obtain ⟨hnear, htie⟩ := h topRank
    by_contra hx
    push Not at hx
    rw [abs_of_nonneg (by linarith)] at hnear htie
    rcases le_total (point topRank) x with hle | hle
    · rw [abs_of_nonneg (by linarith)] at hnear
      linarith
    rw [abs_of_nonpos (by linarith)] at hnear htie
    -- Both are equally near only from the last finite point, whose rank is odd.
    have heq : point rank = point (topRank - 1) := by linarith
    have hodd : rank = topRank - 1 := strictMono_point.injective heq
    rcases htie (by linarith) with hrank' | heven
    · omega
    · rw [hodd] at heven
      exact absurd heven (by decide)
  · intro hx
    by_contra hrank
    push Not at hrank
    have hpoint : point topRank ≤ point rank := strictMono_point.monotone hrank
    have hnear := (h (topRank - 1)).1
    rw [abs_of_nonpos (by linarith)] at hnear
    rcases le_total (point (topRank - 1)) x with hle | hle
    · rw [abs_of_nonneg (by linarith)] at hnear
      linarith
    · rw [abs_of_nonpos (by linarith)] at hnear
      linarith

end LiveMap.Binary32
