import LiveMap.Proofs.Numeric.Order
import LiveMap.Trajectory.Basic

/-!
# Samples in order

The samples of a trajectory are ordered by their stamps. A time splits them into the earlier and the
others, and what the bisections find depends only on the two samples on either side of the split.
Where only comparisons matter the stamps may be any numbers, rounded ones too.

## Main definitions

* `InOrder`, `Dated`: stamps that do not fall, and stamps that are numbers.
* `SplitAt`: the samples before a time, and those from it on.
* `nearer`: the nearer of two neighbours of a time.

## Main statements

* `insertSample_of_split`: a sample comes behind all that are not later.
* `SplitAt.nearest`: the sample that a correction is matched with, and those that it retains.
-/

namespace LiveMap

open Scalar (Ordered IsNumber)

variable {K : Type} [Scalar K]

/-- The stamps do not fall. -/
def InOrder (history : List (Sample K)) : Prop := history.Pairwise fun a b => a.stamp ≤ b.stamp

/-- The stamps are numbers. -/
def Dated (history : List (Sample K)) : Prop := ∀ s ∈ history, IsNumber s.stamp

theorem dated_real (history : List (Sample ℝ)) : Dated history :=
  fun s _ => Scalar.isNumber_real s.stamp

theorem Dated.left {xs ys : List (Sample K)} (h : Dated (xs ++ ys)) : Dated xs :=
  fun s hs => h s (List.mem_append_left _ hs)

theorem Dated.right {xs ys : List (Sample K)} (h : Dated (xs ++ ys)) : Dated ys :=
  fun s hs => h s (List.mem_append_right _ hs)

theorem InOrder.left {xs ys : List (Sample K)} (h : InOrder (xs ++ ys)) : InOrder xs :=
  (List.pairwise_append.mp h).1

theorem InOrder.right {xs ys : List (Sample K)} (h : InOrder (xs ++ ys)) : InOrder ys :=
  (List.pairwise_append.mp h).2.1

theorem InOrder.exists_split {history : List (Sample K)} (h : InOrder history)
    (behind : Sample K → Prop)
    (hbehind : ∀ a b : Sample K, a.stamp ≤ b.stamp → behind b → behind a) :
    ∃ early late, history = early ++ late ∧ (∀ a ∈ early, behind a) ∧ ∀ b ∈ late, ¬ behind b := by
  induction history with
  | nil => exact ⟨[], [], rfl, by simp, by simp⟩
  | cons a rest ih =>
    obtain ⟨ha, hrest⟩ := List.pairwise_cons.mp h
    by_cases hfirst : behind a
    · obtain ⟨early, late, rfl, hearly, hlate⟩ := ih hrest
      exact ⟨a :: early, late, rfl, by simpa [hfirst] using hearly, hlate⟩
    · refine ⟨[], a :: rest, rfl, by simp, ?_⟩
      intro b hb hbehindB
      rcases List.mem_cons.mp hb with rfl | hb
      · exact hfirst hbehindB
      · exact hfirst (hbehind a b (ha b hb) hbehindB)

theorem Dated.le_last {history : List (Sample K)} (hdated : Dated history) (h : InOrder history)
    {last : Sample K} (hlast : history.getLast? = some last) {a : Sample K} (ha : a ∈ history) :
    a.stamp ≤ last.stamp := by
  obtain ⟨before, rfl⟩ := List.getLast?_eq_some_iff.mp hlast
  rcases List.mem_append.mp ha with hbefore | hlast
  · exact (List.pairwise_append.mp h).2.2 a hbefore last List.mem_cons_self
  · rw [List.mem_singleton.mp hlast] at ha ⊢
    exact hdated last ha

theorem InOrder.le_last {history : List (Sample ℝ)} (h : InOrder history) {last : Sample ℝ}
    (hlast : history.getLast? = some last) {a : Sample ℝ} (ha : a ∈ history) :
    a.stamp ≤ last.stamp :=
  (dated_real history).le_last h hlast ha

theorem Dated.first_le {first : Sample K} {rest : List (Sample K)}
    (hdated : Dated (first :: rest)) (h : InOrder (first :: rest)) {a : Sample K}
    (ha : a ∈ first :: rest) : first.stamp ≤ a.stamp := by
  rcases List.mem_cons.mp ha with rfl | hrest
  · exact hdated a ha
  · exact List.rel_of_pairwise_cons h hrest

theorem InOrder.first_le {first : Sample ℝ} {rest : List (Sample ℝ)} (h : InOrder (first :: rest))
    {a : Sample ℝ} (ha : a ∈ first :: rest) : first.stamp ≤ a.stamp :=
  (dated_real _).first_le h ha

/-! ## Insertion -/

theorem eq_or_mem_of_mem_insertSample {history : List (Sample K)} {x s : Sample K}
    (h : x ∈ insertSample history s) : x = s ∨ x ∈ history := by
  unfold insertSample at h
  split at h
  · exact .inl (by simpa using h)
  · split at h
    · simpa [or_comm] using h
    · exact List.eq_or_mem_of_mem_insertIdx h

theorem insertIdx_length_append {α : Type} (x : α) (xs ys : List α) :
    (xs ++ ys).insertIdx xs.length x = xs ++ x :: ys := by
  induction xs with
  | nil => simp
  | cons a xs ih => simpa using ih

theorem placeAfter_of_split [Ordered K] {before behind : List (Sample K)} {stamp : K}
    (hbefore : ∀ a ∈ before, a.stamp ≤ stamp) (hbehind : ∀ b ∈ behind, stamp < b.stamp) :
    placeAfter (before ++ behind) stamp = before.length := by
  refine bisect_append (fun a ha => ?_) fun b hb => ?_
  · simpa using Scalar.not_lt_of_le (hbefore a ha)
  · simpa using hbehind b hb

/-- A sample comes behind all that are not later. -/
theorem insertSample_of_split [Ordered K] {before behind : List (Sample K)} {x : Sample K}
    (hbefore : ∀ a ∈ before, a.stamp ≤ x.stamp) (hbehind : ∀ b ∈ behind, x.stamp < b.stamp) :
    insertSample (before ++ behind) x = before ++ x :: behind := by
  unfold insertSample
  split
  next h => simp_all
  next last h =>
    split
    next hlast =>
      have hnone : behind = [] := by
        by_contra hne
        have hmem : last ∈ behind := by
          rw [List.getLast?_append_of_ne_nil _ hne] at h
          exact List.mem_of_getLast? h
        exact absurd hlast (Scalar.not_le_of_lt (hbehind last hmem))
      simp [hnone]
    next => rw [placeAfter_of_split hbefore hbehind, insertIdx_length_append]

theorem Dated.exists_insert [Ordered K] {history : List (Sample K)} (hdated : Dated history)
    (h : InOrder history) {x : Sample K} (hx : IsNumber x.stamp) :
    ∃ before behind, history = before ++ behind ∧ (∀ a ∈ before, a.stamp ≤ x.stamp) ∧
      (∀ b ∈ behind, x.stamp < b.stamp) ∧ insertSample history x = before ++ x :: behind := by
  obtain ⟨before, behind, rfl, hbefore, hnot⟩ :=
    h.exists_split (fun a => a.stamp ≤ x.stamp) fun a b hab hb => Ordered.le_trans hab hb
  have hbehind : ∀ b ∈ behind, x.stamp < b.stamp := fun b hb =>
    Scalar.lt_of_not_le hx (hdated.right b hb) (hnot b hb)
  exact ⟨before, behind, rfl, hbefore, hbehind, insertSample_of_split hbefore hbehind⟩

theorem InOrder.exists_insert {history : List (Sample ℝ)} (h : InOrder history) (x : Sample ℝ) :
    ∃ before behind, history = before ++ behind ∧ (∀ a ∈ before, a.stamp ≤ x.stamp) ∧
      (∀ b ∈ behind, x.stamp < b.stamp) ∧ insertSample history x = before ++ x :: behind :=
  (dated_real history).exists_insert h (Scalar.isNumber_real x.stamp)

theorem getLast?_insertSample_of_le {history : List (Sample ℝ)} {x : Sample ℝ}
    (h : ∀ a ∈ history, a.stamp ≤ x.stamp) : (insertSample history x).getLast? = some x := by
  have hend : insertSample (history ++ []) x = history ++ [x] := insertSample_of_split h (by simp)
  rw [List.append_nil] at hend
  rw [hend, List.getLast?_concat]

theorem InOrder.getLast?_insertSample_of_lt {history : List (Sample ℝ)} (h : InOrder history)
    {x last : Sample ℝ} (hlast : history.getLast? = some last) (hlt : x.stamp < last.stamp) :
    (LiveMap.insertSample history x).getLast? = some last := by
  obtain ⟨before, behind, rfl, hbefore, -, hinsert⟩ := h.exists_insert x
  have hne : behind ≠ [] := by
    rintro rfl
    rw [List.append_nil] at hlast
    exact absurd (hbefore last (List.mem_of_getLast? hlast)) (not_le.mpr hlt)
  rw [List.getLast?_append_of_ne_nil _ hne] at hlast
  rw [hinsert, List.getLast?_append_of_ne_nil _ (by simp), List.getLast?_cons_of_ne_nil hne, hlast]

theorem InOrder.exists_head?_insertSample {history : List (Sample ℝ)} (h : InOrder history)
    {first : Sample ℝ} (hfirst : history.head? = some first) (x : Sample ℝ) :
    ∃ first', (LiveMap.insertSample history x).head? = some first' ∧
      first'.stamp ≤ first.stamp := by
  obtain ⟨before, behind, rfl, -, hbehind, hinsert⟩ := h.exists_insert x
  rw [hinsert]
  cases before with
  | nil => exact ⟨x, rfl, (hbehind first (List.mem_of_head? hfirst)).le⟩
  | cons a before => exact ⟨first, by simpa using hfirst, le_refl _⟩

theorem Dated.inOrder_insertSample [Ordered K] {history : List (Sample K)}
    (hdated : Dated history) (h : InOrder history) {x : Sample K} (hx : IsNumber x.stamp) :
    InOrder (insertSample history x) := by
  obtain ⟨before, behind, rfl, hbefore, hbehind, hinsert⟩ := hdated.exists_insert h hx
  rw [hinsert]
  obtain ⟨h1, h2, h12⟩ := List.pairwise_append.mp h
  have hlast : InOrder (x :: behind) :=
    List.pairwise_cons.mpr ⟨fun b hb => Scalar.le_of_lt (hbehind b hb), h2⟩
  refine List.pairwise_append.mpr ⟨h1, hlast, ?_⟩
  intro a ha b hb
  rcases List.mem_cons.mp hb with rfl | hb
  · exact hbefore a ha
  · exact h12 a ha b hb

theorem InOrder.insertSample {history : List (Sample ℝ)} (h : InOrder history) (x : Sample ℝ) :
    InOrder (insertSample history x) :=
  (dated_real history).inOrder_insertSample h (Scalar.isNumber_real x.stamp)

/-! ## Neighbours of a time -/

/-- The nearer of the last sample before a time and the first from it on; of two equally near the
earlier. -/
def nearer (stamp : K) : Option (Sample K) → Option (Sample K) → Option (Sample K)
  | none, late => late
  | some early, none => some early
  | some early, some late =>
    if late.stamp - stamp < stamp - early.stamp then some late else some early

theorem nearer_eq_some {stamp : K} {early late : Option (Sample K)} {s : Sample K}
    (h : nearer stamp early late = some s) : early = some s ∨ late = some s := by
  cases early with
  | none => exact .inr h
  | some e =>
    cases late with
    | none => exact .inl h
    | some l =>
      simp only [nearer] at h
      split at h
      · exact .inr h
      · exact .inl h

theorem nearer_of_far {stamp : K} {early : Option (Sample K)} {first : Sample K}
    (h : ∀ e ∈ early, first.stamp - stamp < stamp - e.stamp) :
    nearer stamp early (some first) = some first := by
  cases early with
  | none => rfl
  | some e => exact if_pos (h e rfl)

/-- The time comes between the two parts of a history in order. -/
structure SplitAt (stamp : K) (early late : List (Sample K)) : Prop where
  inOrder : InOrder (early ++ late)
  early : ∀ a ∈ early, a.stamp < stamp
  late : ∀ b ∈ late, stamp ≤ b.stamp

theorem Dated.exists_splitAt [Ordered K] {history : List (Sample K)} (hdated : Dated history)
    (h : InOrder history) {stamp : K} (hstamp : IsNumber stamp) :
    ∃ early late, history = early ++ late ∧ SplitAt stamp early late := by
  obtain ⟨early, late, rfl, hearly, hnot⟩ :=
    h.exists_split (fun a => a.stamp < stamp) fun a b hab hb => Scalar.lt_of_le_of_lt hab hb
  have hlate : ∀ b ∈ late, stamp ≤ b.stamp := fun b hb =>
    Scalar.le_of_not_lt hstamp (hdated.right b hb) (hnot b hb)
  exact ⟨early, late, rfl, h, hearly, hlate⟩

theorem InOrder.exists_splitAt {history : List (Sample ℝ)} (h : InOrder history) (stamp : ℝ) :
    ∃ early late, history = early ++ late ∧ SplitAt stamp early late :=
  (dated_real history).exists_splitAt h (Scalar.isNumber_real stamp)

namespace SplitAt

section Parts

variable {stamp : K} {early late : List (Sample K)}

theorem inOrder_early (h : SplitAt stamp early late) : InOrder early := h.inOrder.left

theorem inOrder_late (h : SplitAt stamp early late) : InOrder late := h.inOrder.right

end Parts

variable {stamp : ℝ} {early late : List (Sample ℝ)}

theorem insert_early (h : SplitAt stamp early late) {x : Sample ℝ} (hx : x.stamp < stamp) :
    insertSample (early ++ late) x = insertSample early x ++ late ∧
      SplitAt stamp (insertSample early x) late := by
  obtain ⟨before, behind, rfl, hbefore, hbehind, hinsert⟩ := h.inOrder_early.exists_insert x
  have hwhole : insertSample ((before ++ behind) ++ late) x =
      insertSample (before ++ behind) x ++ late := by
    rw [hinsert, List.append_assoc, insertSample_of_split hbefore, List.append_assoc]
    · rfl
    · intro b hb
      rcases List.mem_append.mp hb with hb | hb
      · exact hbehind b hb
      · exact hx.trans_le (h.late b hb)
  refine ⟨hwhole, hwhole ▸ h.inOrder.insertSample x, ?_, h.late⟩
  rw [hinsert]
  intro a ha
  rcases List.mem_append.mp ha with ha | ha
  · exact h.early a (List.mem_append_left _ ha)
  · rcases List.mem_cons.mp ha with rfl | ha
    · exact hx
    · exact h.early a (List.mem_append_right _ ha)

theorem insert_late (h : SplitAt stamp early late) {x : Sample ℝ} (hx : stamp ≤ x.stamp) :
    insertSample (early ++ late) x = early ++ insertSample late x ∧
      SplitAt stamp early (insertSample late x) := by
  obtain ⟨before, behind, rfl, hbefore, hbehind, hinsert⟩ := h.inOrder_late.exists_insert x
  have hwhole : insertSample (early ++ (before ++ behind)) x =
      early ++ insertSample (before ++ behind) x := by
    rw [hinsert, ← List.append_assoc, insertSample_of_split _ hbehind, List.append_assoc]
    intro a ha
    rcases List.mem_append.mp ha with ha | ha
    · exact (h.early a ha).le.trans hx
    · exact hbefore a ha
  refine ⟨hwhole, hwhole ▸ h.inOrder.insertSample x, h.early, ?_⟩
  rw [hinsert]
  intro b hb
  rcases List.mem_append.mp hb with hb | hb
  · exact h.late b (List.mem_append_left _ hb)
  · rcases List.mem_cons.mp hb with rfl | hb
    · exact hx
    · exact h.late b (List.mem_append_right _ hb)

/-- The earlier samples may lose some of the oldest. -/
theorem suffix {before : List (Sample ℝ)} (h : SplitAt stamp (before ++ early) late) :
    SplitAt stamp early late := by
  refine ⟨?_, fun a ha => h.early a (List.mem_append_right _ ha), h.late⟩
  have hall := h.inOrder
  rw [List.append_assoc] at hall
  exact hall.right

/-- A later time takes over some of the samples behind an earlier one. -/
theorem move {between rest : List (Sample ℝ)} (h : SplitAt stamp early (between ++ rest))
    {stamp' : ℝ} (hle : stamp ≤ stamp') (hsplit : SplitAt stamp' between rest) :
    SplitAt stamp' (early ++ between) rest := by
  refine ⟨?_, fun a ha => ?_, hsplit.late⟩
  · rw [List.append_assoc]
    exact h.inOrder
  · rcases List.mem_append.mp ha with ha | ha
    · exact (h.early a ha).trans_le hle
    · exact hsplit.early a ha

/-! ## Matching -/

/-- If the first sample from the time on is nearest, all before the time are farther from it. -/
theorem far_of_nearer (h : SplitAt stamp early late)
    (hnearer : nearer stamp early.getLast? late.head? = late.head?) :
    early = [] ∨ ∃ first, late.head? = some first ∧
      ∀ a ∈ early, first.stamp - stamp < stamp - a.stamp := by
  cases hlast : early.getLast? with
  | none => exact .inl (List.getLast?_eq_none_iff.mp hlast)
  | some last =>
    right
    cases hhead : late.head? with
    | none => simp [hlast, hhead, nearer] at hnearer
    | some first =>
      have hfar : first.stamp - stamp < stamp - last.stamp := by
        by_contra hnot
        rw [hlast, hhead, nearer, if_neg hnot, Option.some.injEq] at hnearer
        have hlt := h.early last (List.mem_of_getLast? hlast)
        exact absurd (h.late first (List.mem_of_head? hhead)) (not_le.mpr (hnearer ▸ hlt))
      refine ⟨first, rfl, fun a ha => ?_⟩
      have hle := h.inOrder_early.le_last hlast ha
      linarith

/-- The matched sample is the nearer of the two neighbours, and the samples from it on are those
behind the time, with the last one before it if that is matched. -/
theorem nearest [Ordered K] {stamp : K} {early late : List (Sample K)}
    (h : SplitAt stamp early late) :
    (early ++ late)[nearestIndex (early ++ late) stamp]? =
      nearer stamp early.getLast? late.head? ∧
    ((nearer stamp early.getLast? late.head? = late.head? ∧
        (early ++ late).drop (nearestIndex (early ++ late) stamp) = late) ∨
      ∃ last, early.getLast? = some last ∧
        nearer stamp early.getLast? late.head? = some last ∧
        (early ++ late).drop (nearestIndex (early ++ late) stamp) = last :: late) := by
  have hplace : placeBefore (early ++ late) stamp = early.length := by
    refine bisect_append (fun a ha => ?_) fun b hb => ?_
    · simpa using h.early a ha
    · simpa using Scalar.not_lt_of_le (h.late b hb)
  rcases List.eq_nil_or_concat early with rfl | ⟨before, last, rfl⟩
  · have hindex : nearestIndex ([] ++ late) stamp = 0 := by
      simp only [nearestIndex, hplace, List.length_nil]
    rw [hindex]
    exact ⟨by simp [nearer, List.head?_eq_getElem?], .inl ⟨by simp [nearer], by simp⟩⟩
  · simp only [List.concat_eq_append, List.length_append, List.length_singleton] at hplace ⊢
    have hlast : (before ++ [last] ++ late)[before.length]? = some last := by simp
    have hfirst : (before ++ [last] ++ late)[before.length + 1]? = late.head? := by
      rw [List.getElem?_append_right (by simp)]
      simp [List.head?_eq_getElem?]
    have hdropLast : (before ++ [last] ++ late).drop before.length = last :: late := by simp
    have hdrop : (before ++ [last] ++ late).drop (before.length + 1) = late := by
      rw [List.drop_append_of_le_length (by simp), List.drop_of_length_le (by simp),
        List.nil_append]
    simp only [nearestIndex, hplace, hlast, hfirst, List.getLast?_concat]
    cases hhead : late.head? with
    | none => exact ⟨hlast, .inr ⟨last, rfl, rfl, hdropLast⟩⟩
    | some first =>
      simp only [nearer]
      split
      · exact ⟨hfirst.trans hhead, .inl ⟨rfl, hdrop⟩⟩
      · exact ⟨hlast, .inr ⟨last, rfl, rfl, hdropLast⟩⟩

end SplitAt

end LiveMap
