/-!
# Bisection

The place in a list behind all entries that satisfy a condition, found by halving. In a list whose
satisfying entries come first the place is their number; in any other list it depends on the entries
that are looked at, which are those in the middle of what is left.

## Main definitions

* `bisect`: the place, with `bisect_append` on lists whose satisfying entries come first.
-/

namespace LiveMap

variable {α : Type}

/-- The place in the stretch from `low` to `high`. -/
def bisectBetween (behind : α → Bool) (xs : List α) (low high : Nat) : Nat :=
  if low < high then
    let middle := (low + high) / 2
    match xs[middle]? with
    | none => low
    | some x =>
      if behind x then bisectBetween behind xs (middle + 1) high
      else bisectBetween behind xs low middle
  else low
termination_by high - low

/-- The place in a list; `behind` tells whether it is behind an entry. -/
def bisect (behind : α → Bool) (xs : List α) : Nat := bisectBetween behind xs 0 xs.length

theorem bisectBetween_le {behind : α → Bool} {xs : List α} {low high : Nat} (h : low ≤ high) :
    bisectBetween behind xs low high ≤ high := by
  fun_induction bisectBetween behind xs low high with
  | case1 => exact h
  | case2 low high hlt middle x _ _ ih => exact ih (by omega)
  | case3 low high hlt middle x _ _ ih =>
    have := ih (by omega)
    omega
  | case4 => exact h

theorem bisect_le_length (behind : α → Bool) (xs : List α) : bisect behind xs ≤ xs.length :=
  bisectBetween_le (Nat.zero_le _)

theorem bisectBetween_append {behind : α → Bool} {ys zs : List α} (hy : ∀ y ∈ ys, behind y)
    (hz : ∀ z ∈ zs, behind z = false) {low high : Nat} (hlow : low ≤ ys.length)
    (hhigh : ys.length ≤ high) (hlen : high ≤ (ys ++ zs).length) :
    bisectBetween behind (ys ++ zs) low high = ys.length := by
  fun_induction bisectBetween behind (ys ++ zs) low high with
  | case1 low high hlt middle hx =>
    have := List.getElem?_eq_none_iff.mp hx
    omega
  | case2 low high hlt middle x hx hb ih =>
    refine ih ?_ hhigh hlen
    by_cases hm : middle < ys.length
    · omega
    · rw [List.getElem?_append_right (by omega)] at hx
      have := hz x (List.mem_of_getElem? hx)
      simp_all
  | case3 low high hlt middle x hx hb ih =>
    refine ih hlow ?_ (by omega)
    by_cases hm : middle < ys.length
    · rw [List.getElem?_append_left hm] at hx
      exact absurd (hy x (List.mem_of_getElem? hx)) hb
    · omega
  | case4 low high hlt => omega

/-- Where the satisfying entries come first, the place is behind the last of them. -/
theorem bisect_append {behind : α → Bool} {ys zs : List α} (hy : ∀ y ∈ ys, behind y)
    (hz : ∀ z ∈ zs, behind z = false) : bisect behind (ys ++ zs) = ys.length :=
  bisectBetween_append hy hz (Nat.zero_le _) (by simp) (Nat.le_refl _)

end LiveMap
