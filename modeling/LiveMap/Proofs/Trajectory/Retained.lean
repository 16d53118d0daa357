import LiveMap.Proofs.Trajectory.Arrivals

/-!
# Retained samples

A correction releases samples by their places, not by their times. If the matched sample is not
earlier than the correction, it is the first of its time, and exactly the older samples are
released. If it is earlier, it is the last of its time, and the others of that time are released
with the older ones.

## Main definitions

* `samplesFrom`, `samplesAfter`: the samples from a time on, and those behind it.

## Main statements

* `Dated.samplesFrom_eq`: the samples of a time come before those behind it.
* `SplitAt.first_retained`, `SplitAt.last_retained`: the two neighbours of a time among the samples
  of their own times.
* `Trajectory.updateAnchor_retains`: what a correction retains, told by stamps.
-/

namespace LiveMap

open Scalar (Ordered IsNumber)

variable {K : Type} [Scalar K]

/-! ## Samples from a time on -/

/-- The samples that are not older than a time. -/
def samplesFrom (stamp : K) (samples : List (Sample K)) : List (Sample K) :=
  samples.filter fun s => decide (stamp ≤ s.stamp)

/-- The samples that are younger than a time. -/
def samplesAfter (stamp : K) (samples : List (Sample K)) : List (Sample K) :=
  samples.filter fun s => decide (stamp < s.stamp)

theorem filter_append_of_cut {α : Type} {p : α → Bool} {xs ys : List α}
    (hxs : ∀ a ∈ xs, p a = false) (hys : ∀ b ∈ ys, p b = true) : (xs ++ ys).filter p = ys := by
  have hnone : xs.filter p = [] := List.filter_eq_nil_iff.mpr fun a ha => by simp [hxs a ha]
  rw [List.filter_append, hnone, List.filter_eq_self.mpr hys, List.nil_append]

section Cuts

variable {stamp : K} {early late : List (Sample K)}

theorem samplesAt_of_older [Ordered K] (hearly : ∀ a ∈ early, a.stamp < stamp) :
    samplesAt stamp early = [] :=
  samplesAt_eq_nil fun a ha hequal => Scalar.not_le_of_lt (hearly a ha) hequal.2

theorem samplesAt_of_younger [Ordered K] (hlate : ∀ b ∈ late, stamp < b.stamp) :
    samplesAt stamp late = [] :=
  samplesAt_eq_nil fun b hb hequal => Scalar.not_le_of_lt (hlate b hb) hequal.1

theorem samplesFrom_of_cut [Ordered K] (hearly : ∀ a ∈ early, a.stamp < stamp)
    (hlate : ∀ b ∈ late, stamp ≤ b.stamp) : samplesFrom stamp (early ++ late) = late :=
  filter_append_of_cut (fun a ha => decide_eq_false (Scalar.not_le_of_lt (hearly a ha)))
    fun b hb => decide_eq_true (hlate b hb)

theorem samplesAfter_of_cut [Ordered K] (hearly : ∀ a ∈ early, a.stamp ≤ stamp)
    (hlate : ∀ b ∈ late, stamp < b.stamp) : samplesAfter stamp (early ++ late) = late :=
  filter_append_of_cut (fun a ha => decide_eq_false (Scalar.not_lt_of_le (hearly a ha)))
    fun b hb => decide_eq_true (hlate b hb)

end Cuts

/-- In order, the samples of a time come before those behind it. -/
theorem Dated.samplesFrom_eq [Ordered K] {history : List (Sample K)} (hdated : Dated history)
    (h : InOrder history) {stamp : K} (hstamp : IsNumber stamp) :
    samplesFrom stamp history = samplesAt stamp history ++ samplesAfter stamp history := by
  obtain ⟨early, late, rfl, hsplit⟩ := hdated.exists_splitAt h hstamp
  obtain ⟨same, after, rfl, hsame, hnot⟩ := h.right.exists_split (fun b => b.stamp ≤ stamp)
    fun a b hab hb => Ordered.le_trans hab hb
  have hafter : ∀ b ∈ after, stamp < b.stamp := fun b hb =>
    Scalar.lt_of_not_le hstamp (hdated.right.right b hb) (hnot b hb)
  have hcut : ∀ a ∈ early ++ same, a.stamp ≤ stamp := by
    intro a ha
    rcases List.mem_append.mp ha with ha | ha
    · exact Scalar.le_of_lt (hsplit.early a ha)
    · exact hsame a ha
  have hat : samplesAt stamp (early ++ (same ++ after)) = same := by
    have hall : samplesAt stamp same = same := List.filter_eq_self.mpr fun b hb =>
      decide_eq_true ⟨hsame b hb, hsplit.late b (List.mem_append_left _ hb)⟩
    rw [samplesAt_append, samplesAt_append, samplesAt_of_older hsplit.early, hall,
      samplesAt_of_younger hafter, List.nil_append, List.append_nil]
  rw [samplesFrom_of_cut hsplit.early hsplit.late, hat, ← List.append_assoc,
    samplesAfter_of_cut hcut hafter]

namespace SplitAt

variable {stamp : K} {before early late rest : List (Sample K)} {m : Sample K}

/-- The first sample from a time on is the first of its own time. -/
theorem first_retained [Ordered K] (h : SplitAt stamp early (m :: rest))
    (hdated : Dated (early ++ m :: rest)) :
    (samplesAt m.stamp (early ++ m :: rest)).head? = some m ∧
      samplesFrom m.stamp (early ++ m :: rest) = m :: rest := by
  have hm : IsNumber m.stamp := hdated.right m List.mem_cons_self
  have hearly : ∀ a ∈ early, a.stamp < m.stamp := fun a ha =>
    Scalar.lt_of_lt_of_le (h.early a ha) (h.late m List.mem_cons_self)
  constructor
  · rw [samplesAt_append, samplesAt_of_older hearly, List.nil_append,
      samplesAt_cons_of_equal ⟨hm, hm⟩, List.head?_cons]
  · exact samplesFrom_of_cut hearly fun b hb => hdated.right.first_le h.inOrder_late hb

/-- The last sample before a time is the last of its own time. -/
theorem last_retained [Ordered K] (h : SplitAt stamp (before ++ [m]) late)
    (hdated : Dated (before ++ [m] ++ late)) :
    (samplesAt m.stamp (before ++ [m] ++ late)).getLast? = some m ∧
      samplesAfter m.stamp (before ++ [m] ++ late) = late := by
  have hm : IsNumber m.stamp := hdated.left m (by simp)
  have hearly : ∀ a ∈ before ++ [m], a.stamp ≤ m.stamp := fun a ha =>
    hdated.left.le_last h.inOrder_early List.getLast?_concat ha
  have hlate : ∀ b ∈ late, m.stamp < b.stamp := fun b hb =>
    Scalar.lt_of_lt_of_le (h.early m (by simp)) (h.late b hb)
  constructor
  · rw [samplesAt_append, samplesAt_of_younger hlate, List.append_nil, samplesAt_append,
      samplesAt_cons_of_equal ⟨hm, hm⟩, samplesAt_nil, List.getLast?_concat]
  · exact samplesAfter_of_cut hearly hlate

end SplitAt

/-! ## Corrections -/

namespace Trajectory

variable {t : Trajectory K} {stamp : K} {m : Sample K}

theorem history_updateAnchor (h : t.nearest? stamp = some m) (T : Pose K) :
    (t.updateAnchor stamp T).history = t.history.drop (nearestIndex t.history stamp) := by
  rw [updateAnchor, h]

/-- The matched sample is the first from the time of the correction on, or the last before it. -/
theorem retained_cases [Ordered K] (hdated : Dated t.history) (h : InOrder t.history)
    (hstamp : IsNumber stamp) (hmatched : t.nearest? stamp = some m) (T : Pose K) :
    (stamp ≤ m.stamp ∧ (samplesAt m.stamp t.history).head? = some m ∧
      (t.updateAnchor stamp T).history = samplesFrom m.stamp t.history) ∨
    (m.stamp < stamp ∧ (samplesAt m.stamp t.history).getLast? = some m ∧
      (t.updateAnchor stamp T).history = m :: samplesAfter m.stamp t.history) := by
  rw [history_updateAnchor hmatched]
  rw [nearest?] at hmatched
  obtain ⟨early, late, heq, hsplit⟩ := hdated.exists_splitAt h hstamp
  rw [heq] at hmatched hdated ⊢
  obtain ⟨hnearer, hdrop⟩ := hsplit.nearest
  rw [hmatched] at hnearer
  -- Which neighbour is the nearer one does not matter here, only on which side of the time it is.
  rcases hdrop with ⟨hfirst, hdrop⟩ | ⟨last, hlast, hchosen, hdrop⟩
  · obtain ⟨rest, rfl⟩ := List.head?_eq_some_iff.mp (hfirst.symm.trans hnearer.symm)
    obtain ⟨hhead, hfrom⟩ := hsplit.first_retained hdated
    exact .inl ⟨hsplit.late m List.mem_cons_self, hhead, hdrop.trans hfrom.symm⟩
  · obtain rfl : m = last := Option.some.inj (hnearer.trans hchosen)
    obtain ⟨before, rfl⟩ := List.getLast?_eq_some_iff.mp hlast
    obtain ⟨hend, hafter⟩ := hsplit.last_retained hdated
    exact .inr ⟨hsplit.early m (by simp), hend, by rw [hdrop, hafter]⟩

/-- Whatever samples and corrections a trajectory was told before, and in whatever order, a
correction releases the samples before the matched one. If that is not earlier than the correction,
it is the first of its time, and what is left are all that are not older. If it is earlier, it is
the last of its time, and only the younger ones are left besides it: all that are not older exactly
if no other sample is of its time. -/
theorem updateAnchor_retains [Ordered K] {tolerance : K} {events : List (Event K)} (T : Pose K)
    (htold : (start tolerance).told events = t) (hdated : Dated (arrivals events))
    (hsamples : arrivals events ≠ []) (hstamp : IsNumber stamp) :
    ∃ m released, t.nearest? stamp = some m ∧
      t.history = released ++ (t.updateAnchor stamp T).history ∧
      (t.updateAnchor stamp T).history.head? = some m ∧
      (∀ x ∈ released, x.stamp ≤ m.stamp) ∧
      (stamp ≤ m.stamp → (samplesAt m.stamp t.history).head? = some m ∧
        (t.updateAnchor stamp T).history = samplesFrom m.stamp t.history) ∧
      (m.stamp < stamp → (samplesAt m.stamp t.history).getLast? = some m ∧
        (t.updateAnchor stamp T).history = m :: samplesAfter m.stamp t.history) ∧
      ((t.updateAnchor stamp T).history = samplesFrom m.stamp t.history ↔
        stamp ≤ m.stamp ∨ samplesAt m.stamp t.history = [m]) := by
  have hne : t.history ≠ [] := htold ▸ history_told_ne_nil tolerance hsamples
  have harranged : Arranged (arrivals events) t.history := htold ▸ arranged_told tolerance hdated
  obtain ⟨m, hmatched⟩ := Option.ne_none_iff_exists'.mp (mt nearest?_eq_none_iff.mp hne)
  obtain ⟨released, hreleased, -⟩ := exists_released t stamp T
  have hhead : (t.updateAnchor stamp T).history.head? = some m := by
    rw [history_updateAnchor hmatched, List.head?_drop]
    exact hmatched
  have hmem : m ∈ t.history := List.mem_of_getElem? hmatched
  have holder : ∀ x ∈ released, x.stamp ≤ m.stamp := fun x hx =>
    (List.pairwise_append.mp (hreleased ▸ harranged.inOrder)).2.2 x hx m (List.mem_of_head? hhead)
  have hall := harranged.dated.samplesFrom_eq harranged.inOrder (harranged.dated m hmem)
  refine ⟨m, released, hmatched, hreleased, hhead, holder, ?_⟩
  rcases retained_cases harranged.dated harranged.inOrder hstamp hmatched T with
    ⟨hle, hfirst, hfrom⟩ | ⟨hlt, hlast, hafter⟩
  · exact ⟨fun _ => ⟨hfirst, hfrom⟩, fun hlt => absurd hle (Scalar.not_le_of_lt hlt),
      ⟨fun _ => .inl hle, fun _ => hfrom⟩⟩
  · have hnot : ¬ stamp ≤ m.stamp := Scalar.not_le_of_lt hlt
    refine ⟨fun hle => absurd hle hnot, fun _ => ⟨hlast, hafter⟩, ?_⟩
    rw [hafter, hall, or_iff_right hnot]
    constructor
    · intro heq
      rw [← List.singleton_append] at heq
      exact (List.append_cancel_right heq).symm
    · intro halone
      rw [halone, List.singleton_append]

/-- Two samples of one time, and a later one. -/
def twoAtOnce : List (Event Float) :=
  [.sample 1 .identity, .sample 1 ⟨.identity, ⟨1, 0, 0⟩⟩, .sample 5 .identity]

theorem nearestIndex_twoAtOnce : nearestIndex ((start 1).told twoAtOnce).history 2 = 1 := by
  decide +kernel

theorem nearest?_twoAtOnce :
    ((start 1).told twoAtOnce).nearest? 2 = some ⟨1, ⟨.identity, ⟨1, 0, 0⟩⟩⟩ := by
  rw [nearest?, nearestIndex_twoAtOnce]
  rfl

theorem updateAnchor_retains_twoAtOnce :
    Dated (arrivals twoAtOnce) ∧ arrivals twoAtOnce ≠ [] ∧ IsNumber (2 : Float) ∧ (1 : Float) < 2 ∧
    (((start 1).told twoAtOnce).updateAnchor 2 .identity).history =
      ⟨1, ⟨.identity, ⟨1, 0, 0⟩⟩⟩ :: samplesAfter 1 ((start 1).told twoAtOnce).history := by
  have hdated : Dated (arrivals twoAtOnce) := by
    unfold Dated
    decide
  have hsamples : arrivals twoAtOnce ≠ [] := by decide
  have hstamp : IsNumber (2 : Float) := by decide
  have hearlier : (1 : Float) < 2 := by decide
  obtain ⟨m, _, hmatched, -, -, -, -, hlast, -⟩ :=
    updateAnchor_retains .identity (rfl : (start 1).told twoAtOnce = _) hdated hsamples hstamp
  obtain rfl : _ = m := Option.some.inj (nearest?_twoAtOnce.symm.trans hmatched)
  exact ⟨hdated, hsamples, hstamp, hearlier, (hlast hearlier).2⟩

/-- A sample that is not older than the matched one is released. -/
theorem updateAnchor_releases_sameTime :
    ∃ m s, ((start 1).told twoAtOnce).nearest? 2 = some m ∧
      s ∈ ((start 1).told twoAtOnce).history ∧ ¬ s.stamp < m.stamp ∧
      s ∉ (((start 1).told twoAtOnce).updateAnchor 2 .identity).history := by
  have hothers : ∀ x ∈ ((start 1).told twoAtOnce).history.drop 1,
      (x.stamp, x.pose.translation.x) ≠ (1, 0) := by decide
  refine ⟨_, ⟨1, .identity⟩, nearest?_twoAtOnce, List.mem_cons_self, by decide, ?_⟩
  rw [history_updateAnchor nearest?_twoAtOnce, nearestIndex_twoAtOnce]
  exact fun hmem => hothers _ hmem rfl

end Trajectory

end LiveMap
