import Mathlib.Analysis.Real.Sqrt
import Mathlib.Data.List.Sort
import LiveMap.Proofs.Reals
import LiveMap.Scene.HeightColour

/-!
# Colours by height, exactly

Over the real numbers every list of heights that is not empty is coloured, and the colour of a point
depends on its own height and on two percentiles of all. These move with the heights and do not
depend on their order, at least a tenth of a unit is divided by, and no channel leaves its bytes.

## Main definitions

* `HeightColour.ascending`: the order statistics of a list.
* `HeightColour.interpolated`: the value at a place between order statistics.
* `Colour.Shows`: the channels are the integer parts of what a fraction makes of them.

## Main statements

* `HeightColour.percentile_eq_interpolated`: percentiles lie on the line through the order
  statistics.
* `HeightColour.shows_ofFraction`: nothing is carried past the end of a byte.
* `HeightColour.ofHeights_shades`: the colours of a list of heights.
-/

namespace LiveMap

namespace Scalar

theorem atLeast_real (x low : ℝ) : atLeast x low = max x low := by
  unfold atLeast
  split
  case isTrue h => exact (max_eq_right h.le).symm
  case isFalse h => exact (max_eq_left (not_lt.1 h)).symm

theorem atMost_real (x high : ℝ) : atMost x high = min x high := by
  unfold atMost
  split
  case isTrue h => exact (min_eq_right h.le).symm
  case isFalse h => exact (min_eq_left (not_lt.1 h)).symm

end Scalar

namespace HeightColour

/-! ## Order statistics -/

/-- The heights in ascending order. -/
def ascending {K : Type} [Scalar K] (heights : List K) : List K :=
  heights.mergeSort fun a b => a ≤ b

variable {heights : List ℝ}

@[simp] theorem length_ascending (heights : List ℝ) :
    (ascending heights).length = heights.length := List.length_mergeSort heights

theorem ascending_ne_nil (hne : heights ≠ []) : ascending heights ≠ [] := by
  rw [ne_eq, ← List.length_eq_zero_iff, length_ascending, List.length_eq_zero_iff]
  exact hne

theorem pairwise_ascending (heights : List ℝ) : (ascending heights).Pairwise (· ≤ ·) :=
  List.pairwise_mergeSort' _ heights

/-- The order of the heights does not matter. -/
theorem ascending_eq_of_perm {others : List ℝ} (h : others.Perm heights) :
    ascending others = ascending heights := by
  have hperm : (ascending others).Perm (ascending heights) :=
    (List.mergeSort_perm _ _).trans (h.trans (List.mergeSort_perm _ _).symm)
  exact hperm.eq_of_pairwise (fun a b _ _ => le_antisymm) (pairwise_ascending others)
    (pairwise_ascending heights)

theorem ascending_map_add (heights : List ℝ) (c : ℝ) :
    ascending (heights.map (· + c)) = (ascending heights).map (· + c) :=
  (List.map_mergeSort (by simp)).symm

/-- The value at a place of an ascending list, on the straight line between two neighbours. -/
noncomputable def onLine (sorted : List ℝ) (place : ℝ) : ℝ :=
  let low := sorted.getD ⌊place⌋₊ 0
  let high := sorted.getD (⌊place⌋₊ + 1) 0
  low + (high - low) * Int.fract place

/-- A place lies at an entry, and before the next one unless it is there itself. -/
theorem place_cases {n : ℕ} (hn : 0 < n) {place : ℝ} (h0 : 0 ≤ place)
    (h1 : place ≤ (n - 1 : ℕ)) :
    ⌊place⌋₊ < n ∧ (⌊place⌋₊ + 1 < n ∨ Int.fract place = 0) := by
  have hfloor : ⌊place⌋₊ ≤ n - 1 := Nat.floor_le_of_le h1
  refine ⟨by omega, ?_⟩
  rcases hfloor.lt_or_eq with hbefore | hlast
  · exact .inl (by omega)
  · have hplace : place = (n - 1 : ℕ) := le_antisymm h1 (hlast ▸ Nat.floor_le h0)
    exact .inr (by rw [hplace, Int.fract_natCast])

theorem onLine_map_add {sorted : List ℝ} (hne : sorted ≠ []) {place : ℝ} (h0 : 0 ≤ place)
    (h1 : place ≤ (sorted.length - 1 : ℕ)) (c : ℝ) :
    onLine (sorted.map (· + c)) place = onLine sorted place + c := by
  obtain ⟨hlow, hnext⟩ := place_cases (List.length_pos_iff.2 hne) h0 h1
  have hentry {i : ℕ} (hi : i < sorted.length) :
      (sorted.map (· + c)).getD i 0 = sorted.getD i 0 + c := by
    simp [hi]
  rcases hnext with hhigh | hwhole
  · rw [onLine, onLine, hentry hlow, hentry hhigh]
    ring
  · rw [onLine, onLine, hentry hlow, hwhole]
    ring

theorem percentileOfSorted_eq {sorted : List ℝ} (hne : sorted ≠ []) {q : ℝ} (h0 : 0 ≤ q)
    (h1 : q ≤ 1) : percentileOfSorted (· - ·) sorted q =
      some (onLine sorted ((sorted.length - 1 : ℕ) * q)) := by
  have hpos : 0 < sorted.length := List.length_pos_iff.2 hne
  set top := ((sorted.length - 1 : ℕ) : ℝ) with htop
  set place := top * q with hplace
  have htop0 : 0 ≤ top := Nat.cast_nonneg _
  have hplace0 : 0 ≤ place := mul_nonneg htop0 h0
  have hfloor : (Scalar.floor place).toNat = ⌊place⌋₊ := Int.floor_toNat place
  have hlast : sorted.getLast? = some (sorted.getD (sorted.length - 1) 0) := by
    simp [List.getLast?_eq_getElem?, hpos]
  unfold percentileOfSorted
  simp only [hlast, Option.bind_eq_bind, Option.bind_some, ← htop, ← hplace, hfloor]
  by_cases hat : top ≤ place
  · have hend : place = top := le_antisymm (mul_le_of_le_one_right htop0 h1) hat
    rw [if_pos hat, onLine, hend, htop, Nat.floor_natCast, Int.fract_natCast]
    simp
  · have hnext : ⌊place⌋₊ + 1 < sorted.length := by
      have hbefore := (Nat.floor_lt hplace0).2 (htop ▸ not_le.1 hat)
      omega
    have hentry {i : ℕ} (hi : i < sorted.length) : sorted[i]? = some (sorted.getD i 0) := by
      simp [hi]
    have hpart : place - (⌊place⌋₊ : ℝ) = Int.fract place := by
      rw [natCast_floor_eq_intCast_floor hplace0, Int.self_sub_floor]
    rw [if_neg hat, hentry (by omega), hentry hnext]
    simp only [Option.bind_some, hpart]
    refine congrArg some ?_
    rw [onLine]
    -- the nearer neighbour is started from, which makes no difference to exact numbers
    split <;> ring

/-- The value below which the part `q` of the heights lies: at the place `q` of the way from the
lowest to the highest, on the line through the order statistics. -/
noncomputable def interpolated (heights : List ℝ) (q : ℝ) : ℝ :=
  onLine (ascending heights) ((heights.length - 1 : ℕ) * q)

theorem interpolated_eq_of_perm {others : List ℝ} (h : others.Perm heights) (q : ℝ) :
    interpolated others q = interpolated heights q := by
  rw [interpolated, interpolated, ascending_eq_of_perm h, h.length_eq]

section Percentile

variable (hne : heights ≠ []) {q : ℝ} (h0 : 0 ≤ q) (h1 : q ≤ 1)
include hne h0 h1

theorem percentile_eq_interpolated :
    percentile (· - ·) heights q = some (interpolated heights q) := by
  have hnumbers : heights.find? (fun h => ¬ Scalar.IsNumber h) = none :=
    List.find?_eq_none.2 fun h _ => by simp [Scalar.IsNumber]
  have hpercentile := percentileOfSorted_eq (ascending_ne_nil hne) h0 h1
  rw [length_ascending] at hpercentile
  rw [percentile, hnumbers, interpolated, ← hpercentile]
  rfl

theorem interpolated_map_add (c : ℝ) :
    interpolated (heights.map (· + c)) q = interpolated heights q + c := by
  have htop : (0 : ℝ) ≤ (heights.length - 1 : ℕ) := Nat.cast_nonneg _
  rw [interpolated, interpolated, ascending_map_add, List.length_map]
  refine onLine_map_add (ascending_ne_nil hne) (mul_nonneg htop h0) ?_ c
  rw [length_ascending]
  exact mul_le_of_le_one_right htop h1

end Percentile

/-! ## Fractions of the way -/

variable {low high : ℝ}

theorem width_pos (low high : ℝ) : 0 < Scalar.atLeast (high - low) 0.1 := by
  rw [Scalar.atLeast_real]
  exact lt_max_of_lt_right (by norm_num)

theorem fraction_eq (low high height : ℝ) :
    fraction low high height =
      min (max ((height - low) / Scalar.atLeast (high - low) 0.1) 0) 1 := by
  rw [fraction, Scalar.clamp, Scalar.atMost_real, Scalar.atLeast_real _ 0]

theorem fraction_nonneg (height : ℝ) : 0 ≤ fraction low high height := by
  rw [fraction_eq]
  exact le_min (le_max_right _ _) zero_le_one

theorem fraction_le_one (height : ℝ) : fraction low high height ≤ 1 := by
  rw [fraction_eq]
  exact min_le_right _ _

theorem fraction_mono {a b : ℝ} (h : a ≤ b) : fraction low high a ≤ fraction low high b := by
  have hwidth := width_pos low high
  rw [fraction_eq, fraction_eq]
  gcongr

theorem fraction_add (low high height c : ℝ) :
    fraction (low + c) (high + c) (height + c) = fraction low high height := by
  simp only [fraction, add_sub_add_right_eq_sub]

theorem fraction_eq_zero {height : ℝ} (h : height ≤ low) : fraction low high height = 0 := by
  have hpart : (height - low) / Scalar.atLeast (high - low) 0.1 ≤ 0 :=
    div_nonpos_of_nonpos_of_nonneg (sub_nonpos.2 h) (width_pos low high).le
  rw [fraction_eq, max_eq_right hpart, min_eq_left zero_le_one]

/-! ## Channels -/

theorem toNat_toByte {x : ℝ} (h0 : 0 ≤ x) (h1 : x < 256) : ((toByte x).toNat : ℤ) = ⌊x⌋ := by
  have hfloor0 : 0 ≤ ⌊x⌋ := Int.floor_nonneg.2 h0
  have hfloor1 : ⌊x⌋ < 256 := Int.floor_lt.2 (by exact_mod_cast h1)
  have htruncate : truncate x = ⌊x⌋ := if_neg (not_lt.2 h0)
  rw [toByte, htruncate, Int.emod_eq_of_lt hfloor0 hfloor1,
    UInt8.toNat_ofNat', Nat.mod_eq_of_lt (by omega), Int.toNat_of_nonneg hfloor0]

end HeightColour

/-- The channels are the integer parts of what a fraction of the way makes of them. -/
structure Colour.Shows (c : Colour) (f : ℝ) : Prop where
  red : (c.red.toNat : ℤ) = ⌊128 + f * 127⌋
  green : (c.green.toNat : ℤ) = ⌊f * 255⌋
  blue : (c.blue.toNat : ℤ) = ⌊255 - f * 127⌋

namespace HeightColour

theorem shows_ofFraction {f : ℝ} (h0 : 0 ≤ f) (h1 : f ≤ 1) : (ofFraction f).Shows f where
  red := by
    have hvalue : (128.0 + f * 127.0 : ℝ) = 128 + f * 127 := by norm_num
    change ((toByte (128.0 + f * 127.0 : ℝ)).toNat : ℤ) = _
    rw [hvalue, toNat_toByte (by linarith) (by linarith)]
  green := by
    have hvalue : (f * 255.0 : ℝ) = f * 255 := by norm_num
    change ((toByte (f * 255.0 : ℝ)).toNat : ℤ) = _
    rw [hvalue, toNat_toByte (by linarith) (by linarith)]
  blue := by
    have hvalue : (255.0 - f * 127.0 : ℝ) = 255 - f * 127 := by norm_num
    change ((toByte (255.0 - f * 127.0 : ℝ)).toNat : ℤ) = _
    rw [hvalue, toNat_toByte (by linarith) (by linarith)]

end HeightColour

namespace Colour.Shows

variable {c d : Colour} {f g : ℝ}

/-- The intervals of the channels. -/
theorem bounds (h : c.Shows f) (h0 : 0 ≤ f) (h1 : f ≤ 1) :
    (128 ≤ c.red.toNat ∧ c.red.toNat ≤ 255) ∧ c.green.toNat ≤ 255 ∧
      128 ≤ c.blue.toNat ∧ c.blue.toNat ≤ 255 := by
  have hred : (128 : ℤ) ≤ ⌊128 + f * 127⌋ := Int.le_floor.2 (by push_cast; linarith)
  have hblue : (128 : ℤ) ≤ ⌊255 - f * 127⌋ := Int.le_floor.2 (by push_cast; linarith)
  rw [← h.red] at hred
  rw [← h.blue] at hblue
  have hredByte := c.red.toNat_lt
  have hgreenByte := c.green.toNat_lt
  have hblueByte := c.blue.toNat_lt
  omega

/-- Further up there is no less red and green, and no more blue. -/
theorem mono (hc : c.Shows f) (hd : d.Shows g) (h : f ≤ g) :
    c.red ≤ d.red ∧ c.green ≤ d.green ∧ d.blue ≤ c.blue := by
  have hred : ⌊128 + f * 127⌋ ≤ ⌊128 + g * 127⌋ := by gcongr
  have hgreen : ⌊f * 255⌋ ≤ ⌊g * 255⌋ := by gcongr
  have hblue : ⌊255 - g * 127⌋ ≤ ⌊255 - f * 127⌋ := by gcongr
  rw [← hc.red, ← hd.red] at hred
  rw [← hc.green, ← hd.green] at hgreen
  rw [← hc.blue, ← hd.blue] at hblue
  simp only [UInt8.le_iff_toNat_le]
  omega

/-- The colour of the ground. -/
theorem eq_of_zero (h : c.Shows 0) : c = ⟨128, 0, 255⟩ := by
  have hred : c.red = 128 := UInt8.toNat_inj.1 (Int.natCast_inj.1 (by simpa using h.red))
  have hgreen : c.green = 0 := UInt8.toNat_inj.1 (Int.natCast_inj.1 (by simpa using h.green))
  have hblue : c.blue = 255 := UInt8.toNat_inj.1 (Int.natCast_inj.1 (by simpa using h.blue))
  rw [← hred, ← hgreen, ← hblue]

end Colour.Shows

namespace HeightColour

/-! ## Lists of heights -/

/-- The part of the way between two percentiles that a height has come. -/
noncomputable def fractionAmong (heights : List ℝ) (height : ℝ) : ℝ :=
  fraction (interpolated heights 0.05) (interpolated heights 0.95) height

noncomputable def colourAmong (heights : List ℝ) (height : ℝ) : Colour :=
  ofFraction (fractionAmong heights height)

theorem ofHeights_eq (hne : heights ≠ []) :
    ofHeights (· - ·) heights = some (heights.map (colourAmong heights)) := by
  rw [ofHeights, percentile_eq_interpolated hne (by norm_num) (by norm_num),
    percentile_eq_interpolated hne (by norm_num) (by norm_num)]
  rfl

theorem colourAmong_eq_of_perm {others : List ℝ} (h : others.Perm heights) :
    colourAmong others = colourAmong heights := by
  funext height
  simp only [colourAmong, fractionAmong, interpolated_eq_of_perm h]

theorem ofHeights_map_add (hne : heights ≠ []) (c : ℝ) :
    ofHeights (· - ·) (heights.map (· + c)) = ofHeights (· - ·) heights := by
  have hcolour (h : ℝ) : colourAmong (heights.map (· + c)) (h + c) = colourAmong heights h := by
    simp only [colourAmong, fractionAmong]
    rw [interpolated_map_add hne (by norm_num) (by norm_num),
      interpolated_map_add hne (by norm_num) (by norm_num), fraction_add]
  rw [ofHeights_eq hne, ofHeights_eq (by simpa using hne), List.map_map]
  simp only [Function.comp_def, hcolour]

/-- Of heights in any order and any number but none there is one colour for each height, which a
fraction of the way from the 5th to the 95th percentile makes; these lie on the line through the
order statistics. What is divided by is positive, and the channels are the integer parts of their
values, which stay in their intervals. Higher points have no less red and green and no more blue;
moving all heights by one constant changes no colour; the same heights in another order have the
same colours in that order; and what is not above the 5th percentile has the lowest colour. -/
theorem ofHeights_shades {heights : List ℝ} (hne : heights ≠ []) :
    ∃ (low high : ℝ) (colour : ℝ → Colour),
      low = interpolated heights 0.05 ∧ percentile (· - ·) heights 0.05 = some low ∧
      high = interpolated heights 0.95 ∧ percentile (· - ·) heights 0.95 = some high ∧
      ofHeights (· - ·) heights = some (heights.map colour) ∧
      (∀ h, colour h = ofFraction (fraction low high h)) ∧
      0 < Scalar.atLeast (high - low) 0.1 ∧
      (∀ h, (colour h).Shows (fraction low high h) ∧
        (128 ≤ (colour h).red.toNat ∧ (colour h).red.toNat ≤ 255) ∧
        (colour h).green.toNat ≤ 255 ∧
        128 ≤ (colour h).blue.toNat ∧ (colour h).blue.toNat ≤ 255) ∧
      (∀ h h', h ≤ h' → (colour h).red ≤ (colour h').red ∧
        (colour h).green ≤ (colour h').green ∧ (colour h').blue ≤ (colour h).blue) ∧
      (∀ c, ofHeights (· - ·) (heights.map (· + c)) = ofHeights (· - ·) heights) ∧
      (∀ others : List ℝ, others.Perm heights →
        ofHeights (· - ·) others = some (others.map colour)) ∧
      ∀ h ≤ low, colour h = ⟨128, 0, 255⟩ := by
  have hshows (h : ℝ) : (colourAmong heights h).Shows (fractionAmong heights h) :=
    shows_ofFraction (fraction_nonneg h) (fraction_le_one h)
  refine ⟨_, _, colourAmong heights, rfl,
    percentile_eq_interpolated hne (by norm_num) (by norm_num), rfl,
    percentile_eq_interpolated hne (by norm_num) (by norm_num), ofHeights_eq hne, fun _ => rfl,
    width_pos _ _, ?_, ?_, ofHeights_map_add hne, ?_, ?_⟩
  · exact fun h => ⟨hshows h, (hshows h).bounds (fraction_nonneg h) (fraction_le_one h)⟩
  · exact fun h h' hle => (hshows h).mono (hshows h') (fraction_mono hle)
  · intro others hperm
    have hothers : others ≠ [] := fun hnil => hne (List.nil_perm.1 (hnil ▸ hperm))
    rw [ofHeights_eq hothers, colourAmong_eq_of_perm hperm]
  · intro h hlow
    have hzero : fractionAmong heights h = 0 := fraction_eq_zero hlow
    exact (hzero ▸ hshows h).eq_of_zero

/-- The lower of two points, and the same two points in the other order. -/
theorem ofHeights_shades_twoPoints :
    ∃ c : Colour, ofHeights (· - ·) ([0, 10] : List ℝ) = some [⟨128, 0, 255⟩, c] ∧
      ofHeights (· - ·) ([10, 0] : List ℝ) = some [c, ⟨128, 0, 255⟩] ∧ 128 ≤ c.red.toNat := by
  obtain ⟨low, high, colour, hlow, -, -, -, hcolours, -, -, hshows, -, -, hperm, hground⟩ :=
    ofHeights_shades (List.cons_ne_nil (0 : ℝ) [10])
  have hascending : ascending ([0, 10] : List ℝ) = [0, 10] :=
    List.mergeSort_eq_self (· ≤ ·) (by simp)
  have hplace : ⌊(1 / 20 : ℝ)⌋₊ = 0 := Nat.floor_eq_zero.2 (by norm_num)
  have hlow0 : 0 ≤ low := by
    rw [hlow, interpolated, hascending, onLine]
    norm_num [hplace]
  rw [← hground 0 hlow0]
  exact ⟨colour 10, hcolours, hperm [10, 0] (.swap 0 10 []), (hshows 10).2.1.1⟩

end HeightColour

end LiveMap
