import LiveMap.Proofs.Trajectory.Columns
import Mathlib.Data.List.Pairwise

/-!
# Samples in order of arrival

The history of a trajectory is the stable sort of its samples by their stamps: samples of one time
stay in the order that they arrived in, and it does not matter which of the two ways of insertion
put them there. Corrections only take away the first samples, and never the last.

## Main definitions

* `arrivals`: the samples among events, as they arrive.
* `samplesAt`: the samples of one time.
* `byStamp`: the order that samples are sorted by.
* `Arranged`: a history in order, with the samples of each time in order of arrival.

## Main statements

* `InOrder.eq_of_samplesAt`: a history in order is known from the samples of each time.
* `Trajectory.arranged_told`: what samples and corrections preserve.
* `Trajectory.history_of_arrivals`: the history against the arrivals.
-/

namespace LiveMap

open Scalar (Ordered IsNumber)

variable {K : Type} [Scalar K]

/-! ## Samples of one time -/

/-- The samples of a time, in the order that they are listed in. -/
def samplesAt (stamp : K) (samples : List (Sample K)) : List (Sample K) :=
  samples.filter fun s => decide (Scalar.Equal s.stamp stamp)

theorem mem_samplesAt {stamp : K} {samples : List (Sample K)} {s : Sample K} :
    s ∈ samplesAt stamp samples ↔ s ∈ samples ∧ Scalar.Equal s.stamp stamp := by
  simp [samplesAt]

@[simp] theorem samplesAt_nil (stamp : K) : samplesAt stamp [] = [] := rfl

@[simp] theorem samplesAt_append (stamp : K) (xs ys : List (Sample K)) :
    samplesAt stamp (xs ++ ys) = samplesAt stamp xs ++ samplesAt stamp ys :=
  List.filter_append xs ys

theorem samplesAt_cons_of_equal {stamp : K} {s : Sample K} (h : Scalar.Equal s.stamp stamp)
    (samples : List (Sample K)) : samplesAt stamp (s :: samples) = s :: samplesAt stamp samples :=
  List.filter_cons_of_pos (decide_eq_true h)

theorem samplesAt_cons_of_not_equal {stamp : K} {s : Sample K} (h : ¬ Scalar.Equal s.stamp stamp)
    (samples : List (Sample K)) : samplesAt stamp (s :: samples) = samplesAt stamp samples :=
  List.filter_cons_of_neg (by simpa using h)

theorem samplesAt_perm {xs ys : List (Sample K)} (h : xs.Perm ys) (stamp : K) :
    (samplesAt stamp xs).Perm (samplesAt stamp ys) :=
  h.filter _

theorem samplesAt_eq_nil {stamp : K} {samples : List (Sample K)}
    (h : ∀ s ∈ samples, ¬ Scalar.Equal s.stamp stamp) : samplesAt stamp samples = [] :=
  List.filter_eq_nil_iff.mpr fun s hs => by simpa using h s hs

/-- A new sample comes behind those of its time. -/
theorem samplesAt_insertSample [Ordered K] {history : List (Sample K)} (hdated : Dated history)
    (h : InOrder history) {x : Sample K} (hx : IsNumber x.stamp) (stamp : K) :
    samplesAt stamp (insertSample history x) = samplesAt stamp (history ++ [x]) := by
  obtain ⟨before, behind, rfl, -, hbehind, hinsert⟩ := hdated.exists_insert h hx
  rw [hinsert, List.append_assoc, samplesAt_append, samplesAt_append]
  by_cases hequal : Scalar.Equal x.stamp stamp
  · have hnone : samplesAt stamp behind = [] := samplesAt_eq_nil fun b hb hb' =>
      Scalar.not_le_of_lt (hbehind b hb) (Ordered.le_trans hb'.1 hequal.2)
    simp only [samplesAt_cons_of_equal hequal, samplesAt_append, hnone, List.nil_append]
    rfl
  · simp only [samplesAt_cons_of_not_equal hequal, samplesAt_append]
    simp [samplesAt]

theorem mem_of_samplesAt {xs ys : List (Sample K)}
    (h : ∀ stamp, samplesAt stamp xs = samplesAt stamp ys) {s : Sample K} (hs : IsNumber s.stamp)
    (hmem : s ∈ xs) : s ∈ ys := by
  have hxs : s ∈ samplesAt s.stamp xs := mem_samplesAt.mpr ⟨hmem, hs, hs⟩
  rw [h] at hxs
  exact (mem_samplesAt.mp hxs).1

theorem samplesAt_of_cons {x : Sample K} {xs ys : List (Sample K)}
    (h : ∀ stamp, samplesAt stamp (x :: xs) = samplesAt stamp (x :: ys)) (stamp : K) :
    samplesAt stamp xs = samplesAt stamp ys := by
  have hstamp := h stamp
  by_cases hequal : Scalar.Equal x.stamp stamp
  · rw [samplesAt_cons_of_equal hequal, samplesAt_cons_of_equal hequal] at hstamp
    exact (List.cons.inj hstamp).2
  · rwa [samplesAt_cons_of_not_equal hequal, samplesAt_cons_of_not_equal hequal] at hstamp

/-- Two histories in order are the same if they have the same samples of each time. -/
theorem InOrder.eq_of_samplesAt [Ordered K] {xs ys : List (Sample K)} (hxs : InOrder xs)
    (hys : InOrder ys) (hdatedX : Dated xs) (hdatedY : Dated ys)
    (h : ∀ stamp, samplesAt stamp xs = samplesAt stamp ys) : xs = ys := by
  induction xs generalizing ys with
  | nil =>
    refine (List.eq_nil_iff_forall_not_mem.mpr fun y hy => ?_).symm
    cases mem_of_samplesAt (fun stamp => (h stamp).symm) (hdatedY y hy) hy
  | cons x xs ih =>
    have hx : IsNumber x.stamp := hdatedX x List.mem_cons_self
    have hmemX := mem_of_samplesAt h hx List.mem_cons_self
    obtain ⟨y, ys, rfl⟩ := List.exists_cons_of_ne_nil (List.ne_nil_of_mem hmemX)
    have hy : IsNumber y.stamp := hdatedY y List.mem_cons_self
    have hmemY := mem_of_samplesAt (fun stamp => (h stamp).symm) hy List.mem_cons_self
    -- Neither first sample is later than the other, so they begin the samples of one time.
    have hequal : Scalar.Equal y.stamp x.stamp :=
      ⟨hdatedY.first_le hys hmemX, hdatedX.first_le hxs hmemY⟩
    have hfirst := h x.stamp
    rw [samplesAt_cons_of_equal ⟨hx, hx⟩, samplesAt_cons_of_equal hequal] at hfirst
    obtain rfl : x = y := (List.cons.inj hfirst).1
    rw [ih hxs.of_cons hys.of_cons (fun s hs => hdatedX s (List.mem_cons_of_mem _ hs))
      (fun s hs => hdatedY s (List.mem_cons_of_mem _ hs)) (samplesAt_of_cons h)]

/-! ## Sorting by stamps -/

/-- Whether a sample may come before another. -/
def byStamp (a b : Sample K) : Bool := decide (a.stamp ≤ b.stamp)

/-- The same where there are stamps, and samples without one come last: sorting asks for an order
in which any two can be compared. -/
def undatedLast (a b : Sample K) : Bool := byStamp a b || !decide (IsNumber b.stamp)

theorem undatedLast_iff {a b : Sample K} :
    undatedLast a b = true ↔ a.stamp ≤ b.stamp ∨ ¬ IsNumber b.stamp := by
  simp [undatedLast, byStamp]

theorem undatedLast_trans [Ordered K] (a b c : Sample K) (hab : undatedLast a b = true)
    (hbc : undatedLast b c = true) : undatedLast a c = true := by
  rw [undatedLast_iff] at hab hbc ⊢
  refine hbc.imp_left fun hle => ?_
  have hb := (Ordered.isNumber_of_le hle).1
  exact Ordered.le_trans (hab.resolve_right (not_not_intro hb)) hle

theorem undatedLast_total [Ordered K] (a b : Sample K) :
    (undatedLast a b || undatedLast b a) = true := by
  rw [Bool.or_eq_true, undatedLast_iff, undatedLast_iff]
  by_cases ha : IsNumber a.stamp
  · by_cases hb : IsNumber b.stamp
    · exact (Ordered.le_total ha hb).imp .inl .inl
    · exact .inl (.inr hb)
  · exact .inr (.inr ha)

namespace Dated

variable {samples : List (Sample K)}

theorem of_perm {samples' : List (Sample K)} (hdated : Dated samples)
    (h : samples'.Perm samples) : Dated samples' :=
  fun s hs => hdated s (h.mem_iff.mp hs)

theorem mergeSort_eq (hdated : Dated samples) :
    samples.mergeSort byStamp = samples.mergeSort undatedLast := by
  have hsame : ∀ a ∈ samples, ∀ b ∈ samples, byStamp a b = undatedLast (id a) (id b) := by
    intro a _ b hb
    simp [undatedLast, hdated b hb]
  simpa using List.map_mergeSort hsame

theorem mergeSort (hdated : Dated samples) : Dated (samples.mergeSort byStamp) :=
  hdated.of_perm (List.mergeSort_perm samples byStamp)

theorem inOrder_mergeSort [Ordered K] (hdated : Dated samples) :
    InOrder (samples.mergeSort byStamp) := by
  have hsorted := List.pairwise_mergeSort undatedLast_trans undatedLast_total samples
  rw [← hdated.mergeSort_eq] at hsorted
  refine hsorted.imp_of_mem fun _ hb hab => ?_
  exact (undatedLast_iff.mp hab).resolve_right (not_not_intro (hdated.mergeSort _ hb))

/-- Sorting is stable: it leaves the samples of one time in their order. -/
theorem samplesAt_mergeSort [Ordered K] (hdated : Dated samples) (stamp : K) :
    samplesAt stamp (samples.mergeSort byStamp) = samplesAt stamp samples := by
  have hpairwise : (samplesAt stamp samples).Pairwise fun a b => undatedLast a b = true := by
    refine List.pairwise_of_forall_mem_list fun a ha b hb => undatedLast_iff.mpr (.inl ?_)
    exact Ordered.le_trans (mem_samplesAt.mp ha).2.1 (mem_samplesAt.mp hb).2.2
  have hsublist : (samplesAt stamp samples).Sublist (samples.mergeSort byStamp) := by
    rw [hdated.mergeSort_eq]
    exact List.sublist_mergeSort undatedLast_trans undatedLast_total hpairwise List.filter_sublist
  have hpart : (samplesAt stamp samples).Sublist (samplesAt stamp (samples.mergeSort byStamp)) := by
    simpa [samplesAt] using hsublist.filter fun s => decide (Scalar.Equal s.stamp stamp)
  have hlength := (samplesAt_perm (List.mergeSort_perm samples byStamp) stamp).length_eq
  exact (hpart.eq_of_length hlength.symm).symm

end Dated

/-! ## Events -/

namespace Trajectory

/-- The sample of an event that is one. -/
def Event.arrival? {K : Type} : Event K → Option (Sample K)
  | .sample stamp T => some ⟨stamp, T⟩
  | .correction _ _ => none

/-- The samples among events, as they arrive. -/
def arrivals {K : Type} (events : List (Event K)) : List (Sample K) :=
  events.filterMap Event.arrival?

/-- The arrival of a sample. -/
def Event.ofSample {K : Type} (s : Sample K) : Event K := .sample s.stamp s.pose

@[simp] theorem arrivals_map_ofSample {K : Type} (samples : List (Sample K)) :
    arrivals (samples.map Event.ofSample) = samples := by
  simp [arrivals, Event.ofSample, Event.arrival?, Function.comp_def]

end Trajectory

/-! ## One event -/

theorem insertSample_perm (history : List (Sample K)) (s : Sample K) :
    (insertSample history s).Perm (s :: history) := by
  unfold insertSample
  split
  · next hnone => rw [List.getLast?_eq_none_iff.mp hnone]
  · split
    · exact List.perm_append_singleton s history
    · exact List.perm_insertIdx s history (bisect_le_length _ _)

/-- Where the samples are in order it makes no difference whether a place is looked for: a sample
that is not late belongs at the end. -/
theorem Dated.insertSample_eq_insertIdx [Ordered K] {history : List (Sample K)}
    (hdated : Dated history) (h : InOrder history) {x : Sample K} (hx : IsNumber x.stamp) :
    LiveMap.insertSample history x = history.insertIdx (placeAfter history x.stamp) x := by
  obtain ⟨before, behind, rfl, hbefore, hbehind, hinsert⟩ := hdated.exists_insert h hx
  rw [hinsert, placeAfter_of_split hbefore hbehind, insertIdx_length_append]

/-- What is left of the arrivals is in order, and of each time it is what arrived last. -/
structure Arranged (arrived history : List (Sample K)) : Prop where
  dated : Dated history
  inOrder : InOrder history
  suffix (stamp : K) : samplesAt stamp history <:+ samplesAt stamp arrived

namespace Arranged

variable {arrived history : List (Sample K)}

theorem nil : Arranged ([] : List (Sample K)) [] :=
  ⟨by simp [Dated], List.Pairwise.nil, fun _ => List.suffix_refl _⟩

theorem insertSample [Ordered K] (h : Arranged arrived history) {x : Sample K}
    (hx : IsNumber x.stamp) : Arranged (arrived ++ [x]) (insertSample history x) where
  dated s hs := by
    rcases eq_or_mem_of_mem_insertSample hs with rfl | hmem
    · exact hx
    · exact h.dated s hmem
  inOrder := h.dated.inOrder_insertSample h.inOrder hx
  suffix stamp := by
    obtain ⟨released, hreleased⟩ := h.suffix stamp
    rw [samplesAt_insertSample h.dated h.inOrder hx, samplesAt_append, samplesAt_append,
      ← hreleased, List.append_assoc]
    exact List.suffix_append _ _

theorem drop {released : List (Sample K)} (h : Arranged arrived (released ++ history)) :
    Arranged arrived history where
  dated := h.dated.right
  inOrder := h.inOrder.right
  suffix stamp := by
    have hsuffix := h.suffix stamp
    rw [samplesAt_append] at hsuffix
    exact (List.suffix_append _ _).trans hsuffix

/-- If nothing has been taken away, the history is the stable sort of the arrivals. -/
theorem eq_mergeSort [Ordered K] (h : Arranged arrived history) (hperm : history.Perm arrived) :
    history = arrived.mergeSort byStamp := by
  have hdated : Dated arrived := h.dated.of_perm hperm.symm
  refine h.inOrder.eq_of_samplesAt hdated.inOrder_mergeSort h.dated hdated.mergeSort ?_
  intro stamp
  rw [hdated.samplesAt_mergeSort]
  exact (h.suffix stamp).eq_of_length (samplesAt_perm hperm stamp).length_eq

end Arranged

/-- Samples of different times are sorted alike, whatever the order that they are listed in. -/
theorem InOrder.eq_of_perm {xs ys samples : List (Sample K)} (hxs : InOrder xs) (hys : InOrder ys)
    (hpermX : xs.Perm samples) (hpermY : ys.Perm samples)
    (hdistinct : samples.Pairwise fun a b => ¬ Scalar.Equal a.stamp b.stamp) : xs = ys := by
  have : Std.Symm fun a b : Sample K => ¬ Scalar.Equal a.stamp b.stamp :=
    ⟨fun a b hab hba => hab ⟨hba.2, hba.1⟩⟩
  refine (hpermX.trans hpermY.symm).eq_of_pairwise (fun a b ha hb hab hba => ?_) hxs hys
  by_contra hne
  exact hdistinct.forall (hpermX.mem_iff.mp ha) (hpermY.mem_iff.mp hb) hne ⟨hab, hba⟩

namespace Trajectory

variable {t : Trajectory K} {arrived : List (Sample K)}

/-- A correction takes away the first samples, but not the last of all. -/
theorem exists_released (t : Trajectory K) (stamp : K) (T : Pose K) :
    ∃ released, t.history = released ++ (t.updateAnchor stamp T).history ∧
      (t.updateAnchor stamp T).history.getLast? = t.history.getLast? := by
  unfold updateAnchor
  split
  · exact ⟨[], rfl, rfl⟩
  · next m hm =>
    have hne : t.history ≠ [] := fun hnil => by simp [nearest?_eq_none_iff.mpr hnil] at hm
    refine ⟨t.history.take (nearestIndex t.history stamp), (List.take_append_drop _ _).symm, ?_⟩
    rw [List.getLast?_drop, if_neg (not_le.mpr (nearestIndex_lt_length hne stamp))]

/-! ## Many events -/

/-- What an arrival preserves, and what is preserved as the first samples but the last of all are
taken away, holds of the arrivals and the history after any events. -/
theorem told_preserves {P : List (Sample K) → List (Sample K) → Prop} {events : List (Event K)}
    (harrival : ∀ {arrived history : List (Sample K)}, ∀ s ∈ arrivals events,
      P arrived history → P (arrived ++ [s]) (insertSample history s))
    (hrelease : ∀ {arrived released history : List (Sample K)},
      history.getLast? = (released ++ history).getLast? →
        P arrived (released ++ history) → P arrived history)
    (h : P arrived t.history) : P (arrived ++ arrivals events) (t.told events).history := by
  induction events generalizing t arrived with
  | nil => rwa [arrivals, List.filterMap_nil, List.append_nil, told]
  | cons e rest ih =>
    cases e with
    | sample stamp T =>
      have hadd := harrival ⟨stamp, T⟩ List.mem_cons_self h
      have hnext := ih (t := t.add stamp T)
        (fun s hs => harrival s (List.mem_cons_of_mem _ hs)) hadd
      rwa [List.append_assoc] at hnext
    | correction stamp T =>
      obtain ⟨released, hreleased, hlast⟩ := exists_released t stamp T
      rw [hreleased] at h hlast
      exact ih (t := t.updateAnchor stamp T) harrival (hrelease hlast h)

theorem arranged_told [Ordered K] (tolerance : K) {events : List (Event K)}
    (hdated : Dated (arrivals events)) :
    Arranged (arrivals events) ((start tolerance).told events).history :=
  told_preserves (t := start tolerance) (fun s hs h => h.insertSample (hdated s hs))
    (fun _ h => h.drop) Arranged.nil

/-- No sample is made up or doubled. -/
theorem subperm_told (tolerance : K) (events : List (Event K)) :
    ((start tolerance).told events).history.Subperm (arrivals events) := by
  refine told_preserves (P := fun arrived history => history.Subperm arrived)
    (t := start tolerance) (fun {arrived history} s _ h => ?_) (fun _ h => ?_)
    (List.Subperm.refl [])
  · have hfirst : (s :: history).Subperm (s :: arrived) := (List.subperm_cons s).mpr h
    exact (insertSample_perm history s).subperm.trans
      (hfirst.trans (List.perm_append_singleton s arrived).symm.subperm)
  · exact (List.sublist_append_right _ _).subperm.trans h

theorem history_told_ne_nil (tolerance : K) {events : List (Event K)} (h : arrivals events ≠ []) :
    ((start tolerance).told events).history ≠ [] := by
  refine told_preserves (P := fun arrived history => arrived ≠ [] → history ≠ [])
    (t := start tolerance) (fun {_ history} s _ _ _ hnil => ?_)
    (fun hlast hkept harrived hnil => ?_) (fun hnone => absurd rfl hnone) h
  · have hlength := length_insertSample history s
    rw [hnil, List.length_nil] at hlength
    omega
  · rw [hnil, List.getLast?_nil, eq_comm, List.getLast?_eq_none_iff] at hlast
    exact hkept harrived (hnil ▸ hlast)

theorem perm_told_samples (samples : List (Sample K)) (t : Trajectory K) :
    (t.told (samples.map Event.ofSample)).history.Perm (t.history ++ samples) := by
  induction samples generalizing t with
  | nil => simp [told]
  | cons s rest ih =>
    have hfirst : (insertSample t.history s ++ rest).Perm (s :: t.history ++ rest) :=
      (insertSample_perm t.history s).append_right rest
    exact (ih (t.add s.stamp s.pose)).trans (hfirst.trans List.perm_middle.symm)

/-- Samples alone make up their stable sort. -/
theorem history_told_samples [Ordered K] (tolerance : K) {samples : List (Sample K)}
    (hdated : Dated samples) :
    ((start tolerance).told (samples.map Event.ofSample)).history = samples.mergeSort byStamp := by
  have hevents : Dated (arrivals (samples.map Event.ofSample)) := by rwa [arrivals_map_ofSample]
  have harranged := arranged_told tolerance hevents
  rw [arrivals_map_ofSample] at harranged
  exact harranged.eq_mergeSort (perm_told_samples samples (start tolerance))

/-- The order that samples of different times arrive in does not show. -/
theorem history_told_perm [Ordered K] (tolerance : K) {samples samples' : List (Sample K)}
    (hdated : Dated samples) (hperm : samples.Perm samples')
    (hdistinct : samples.Pairwise fun a b => ¬ Scalar.Equal a.stamp b.stamp) :
    ((start tolerance).told (samples.map Event.ofSample)).history =
      ((start tolerance).told (samples'.map Event.ofSample)).history := by
  have hdated' : Dated samples' := hdated.of_perm hperm.symm
  rw [history_told_samples tolerance hdated, history_told_samples tolerance hdated']
  exact hdated.inOrder_mergeSort.eq_of_perm hdated'.inOrder_mergeSort
    (List.mergeSort_perm samples byStamp)
    ((List.mergeSort_perm samples' byStamp).trans hperm.symm) hdistinct

/-- The history of samples whose stamps are numbers is their stable sort, and for samples of
different times it is so whatever the order that they arrive in. Among corrections the history stays
in order and the samples of one time in their order of arrival, so a sample that is put at the end
is where the bisection would put it. A correction takes away the first samples but never the last of
all, and there is one from the first arrival on. Whatever the stamps are, two lists that are edited
one after the other stay the columns of the history, and no sample is lost or doubled as one
arrives. -/
theorem history_of_arrivals [Ordered K] (tolerance : K) :
    (∀ samples : List (Sample K), Dated samples →
      ((start tolerance).told (samples.map Event.ofSample)).history = samples.mergeSort byStamp ∧
      ∀ samples' : List (Sample K), samples.Perm samples' →
        (samples.Pairwise fun a b => ¬ Scalar.Equal a.stamp b.stamp) →
        ((start tolerance).told (samples.map Event.ofSample)).history =
          ((start tolerance).told (samples'.map Event.ofSample)).history) ∧
    ∀ (events : List (Event K)) (t : Trajectory K), (start tolerance).told events = t →
      (Dated (arrivals events) →
        InOrder t.history ∧
        (∀ stamp, samplesAt stamp t.history <:+ samplesAt stamp (arrivals events)) ∧
        ∀ stamp T, IsNumber stamp →
          (t.add stamp T).history = t.history.insertIdx (placeAfter t.history stamp) ⟨stamp, T⟩) ∧
      (∀ stamp T, ∃ released, t.history = released ++ (t.updateAnchor stamp T).history ∧
        (t.updateAnchor stamp T).history.getLast? = t.history.getLast?) ∧
      (arrivals events ≠ [] → t.history ≠ []) ∧
      (Columns.told events {}).stamps.length = (Columns.told events {}).poses.length ∧
      (Columns.told events {}).samples = t.history ∧
      t.history.Subperm (arrivals events) ∧
      ∀ stamp T, (t.add stamp T).history.Perm (⟨stamp, T⟩ :: t.history) := by
  refine ⟨fun samples hdated => ⟨history_told_samples tolerance hdated, fun samples' =>
    history_told_perm tolerance hdated⟩, ?_⟩
  rintro events t rfl
  rw [Columns.told_start events tolerance]
  refine ⟨fun hdated => ?_, exists_released _, history_told_ne_nil tolerance,
    Columns.length_stamps_ofHistory _, Columns.samples_ofHistory _, subperm_told tolerance events,
    fun stamp T => insertSample_perm _ _⟩
  have harranged := arranged_told tolerance hdated
  exact ⟨harranged.inOrder, harranged.suffix, fun stamp T hstamp =>
    harranged.dated.insertSample_eq_insertIdx harranged.inOrder hstamp⟩

/-- Samples that arrive around an earlier one of another time. -/
def lateArrivals : List (Sample Float) :=
  [⟨2, .identity⟩, ⟨1, .identity⟩, ⟨2, ⟨.identity, ⟨1, 0, 0⟩⟩⟩]

/-- A sample without a time, and behind it a late one and a correction. -/
def undatedArrival : List (Event Float) :=
  [.sample 2 .identity, .sample (0 / 0) .identity, .sample 1 .identity, .correction 2 .identity]

theorem history_of_lateArrivals :
    Dated lateArrivals ∧
    ((start 1).told (lateArrivals.map Event.ofSample)).history = lateArrivals.mergeSort byStamp ∧
    ((lateArrivals.take 2).Pairwise fun a b => ¬ Scalar.Equal a.stamp b.stamp) ∧
    ((start 1).told ((lateArrivals.take 2).map Event.ofSample)).history =
      ((start 1).told ((lateArrivals.take 2).reverse.map Event.ofSample)).history ∧
    ((start 1).told undatedArrival).history ≠ [] ∧
    (Columns.told undatedArrival {}).samples = ((start 1).told undatedArrival).history := by
  have hdated : Dated lateArrivals := by
    unfold Dated
    decide
  have hfirst : Dated (lateArrivals.take 2) := fun s hs => hdated s (List.mem_of_mem_take hs)
  have hdistinct :
      (lateArrivals.take 2).Pairwise fun a b => ¬ Scalar.Equal a.stamp b.stamp := by decide
  obtain ⟨hsamples, hevents⟩ := history_of_arrivals (1 : Float)
  obtain ⟨-, -, hne, -, hcolumns, -⟩ := hevents undatedArrival _ rfl
  exact ⟨hdated, (hsamples _ hdated).1, hdistinct,
    (hsamples _ hfirst).2 _ (List.reverse_perm _).symm hdistinct, hne (by decide), hcolumns⟩

end Trajectory

end LiveMap
