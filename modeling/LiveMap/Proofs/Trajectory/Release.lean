import LiveMap.Proofs.Trajectory.Sorted

/-!
# Released samples

A correction releases the samples before the one that it is matched with. As long as the stamps of
corrections do not fall, no later correction misses them: what was released lies before a retained
sample, or farther back than the first retained sample lies ahead.

## Main definitions

* `Trajectory.updateAnchorKeeping`: a correction that releases nothing.
* `Trajectory.Event`, `Trajectory.observe`: what a trajectory is told, and what it shows of itself.
* `Trajectory.AlikeFrom`: no correction from a time on tells two trajectories apart.

## Main statements

* `AlikeFrom.insertSample`, `AlikeFrom.later`, `AlikeFrom.release`: what keeps histories alike.
* `Trajectory.observe_updateAnchor`: releasing samples never shows.
-/

namespace LiveMap

/-! ## Histories that corrections cannot tell apart -/

/-- The two histories agree from a time on. Before it they end with one sample, or else all that
they have there is farther from the time than the first sample behind it. -/
def AlikeFrom (stamp : ℝ) (history kept : List (Sample ℝ)) : Prop :=
  ∃ early early' late, history = early ++ late ∧ kept = early' ++ late ∧
    SplitAt stamp early late ∧ SplitAt stamp early' late ∧
    (early.getLast? = early'.getLast? ∨ ∃ first, late.head? = some first ∧
      ∀ a ∈ early ++ early', first.stamp - stamp < stamp - a.stamp)

namespace AlikeFrom

variable {stamp : ℝ} {history kept : List (Sample ℝ)}

theorem refl (h : InOrder history) (stamp : ℝ) : AlikeFrom stamp history history := by
  obtain ⟨early, late, rfl, hsplit⟩ := h.exists_splitAt stamp
  exact ⟨early, early, late, rfl, rfl, hsplit, hsplit, .inl rfl⟩

/-- The time may move on. What comes before it then ends both histories alike, and if nothing does,
the first sample behind it comes closer and what is before it falls back. -/
theorem later (h : AlikeFrom stamp history kept) {stamp' : ℝ} (hle : stamp ≤ stamp') :
    AlikeFrom stamp' history kept := by
  obtain ⟨early, early', late, rfl, rfl, hsplit, hsplit', hnear⟩ := h
  obtain ⟨between, rest, rfl, hbetween⟩ := hsplit.inOrder_late.exists_splitAt stamp'
  refine ⟨early ++ between, early' ++ between, rest, by simp, by simp, hsplit.move hle hbetween,
    hsplit'.move hle hbetween, ?_⟩
  rcases List.eq_nil_or_concat between with rfl | ⟨before, last, rfl⟩
  · simp only [List.append_nil, List.nil_append] at hnear ⊢
    refine hnear.imp_right fun ⟨first, hfirst, hfar⟩ => ⟨first, hfirst, fun a ha => ?_⟩
    have := hfar a ha
    linarith
  · left
    simp [List.getLast?_append]

/-- Where two histories end with one sample, they do so with one sample more. -/
theorem getLast?_insertSample_eq (h : InOrder history) (h' : InOrder kept)
    (hlast : history.getLast? = kept.getLast?) (x : Sample ℝ) :
    (LiveMap.insertSample history x).getLast? = (LiveMap.insertSample kept x).getLast? := by
  cases hend : history.getLast? with
  | none =>
    have hnil : history = [] := List.getLast?_eq_none_iff.mp hend
    have hnil' : kept = [] := List.getLast?_eq_none_iff.mp (hlast ▸ hend)
    rw [hnil, hnil']
  | some last =>
    have hend' : kept.getLast? = some last := hlast ▸ hend
    rcases lt_or_ge x.stamp last.stamp with hx | hx
    · rw [h.getLast?_insertSample_of_lt hend hx, h'.getLast?_insertSample_of_lt hend' hx]
    · rw [getLast?_insertSample_of_le fun a ha => (h.le_last hend ha).trans hx,
        getLast?_insertSample_of_le fun a ha => (h'.le_last hend' ha).trans hx]

/-- A new sample before the time either ends what comes before it in both histories, or is as far
from the time as all that is there. -/
theorem insertSample (h : AlikeFrom stamp history kept) (x : Sample ℝ) :
    AlikeFrom stamp (insertSample history x) (insertSample kept x) := by
  obtain ⟨early, early', late, rfl, rfl, hsplit, hsplit', hnear⟩ := h
  rcases lt_or_ge x.stamp stamp with hx | hx
  · obtain ⟨hinsert, hsplitX⟩ := hsplit.insert_early hx
    obtain ⟨hinsert', hsplitX'⟩ := hsplit'.insert_early hx
    refine ⟨_, _, late, hinsert, hinsert', hsplitX, hsplitX', ?_⟩
    rcases hnear with hlast | ⟨first, hfirst, hfar⟩
    · exact .inl (getLast?_insertSample_eq hsplit.inOrder_early hsplit'.inOrder_early hlast x)
    · rcases lt_or_ge (first.stamp - stamp) (stamp - x.stamp) with hfarX | hnearX
      · refine .inr ⟨first, hfirst, fun a ha => ?_⟩
        have hcases : a = x ∨ a ∈ early ++ early' := by
          rcases List.mem_append.mp ha with ha | ha
          · exact (eq_or_mem_of_mem_insertSample ha).imp_right (List.mem_append_left _)
          · exact (eq_or_mem_of_mem_insertSample ha).imp_right (List.mem_append_right _)
        rcases hcases with rfl | ha
        · exact hfarX
        · exact hfar a ha
      · have hbefore : ∀ a ∈ early ++ early', a.stamp ≤ x.stamp := by
          intro a ha
          have := hfar a ha
          linarith
        rw [List.forall_mem_append] at hbefore
        left
        rw [getLast?_insertSample_of_le hbefore.1, getLast?_insertSample_of_le hbefore.2]
  · obtain ⟨hinsert, hsplitX⟩ := hsplit.insert_late hx
    obtain ⟨hinsert', hsplitX'⟩ := hsplit'.insert_late hx
    refine ⟨early, early', _, hinsert, hinsert', hsplitX, hsplitX', ?_⟩
    refine hnear.imp_right fun ⟨first, hfirst, hfar⟩ => ?_
    obtain ⟨first', hfirst', hle⟩ := hsplit.inOrder_late.exists_head?_insertSample hfirst x
    refine ⟨first', hfirst', fun a ha => ?_⟩
    have := hfar a ha
    linarith

/-- A correction at the time is matched with one sample in both histories. -/
theorem nearest_eq (h : AlikeFrom stamp history kept) :
    history[nearestIndex history stamp]? = kept[nearestIndex kept stamp]? := by
  obtain ⟨early, early', late, rfl, rfl, hsplit, hsplit', hnear⟩ := h
  rw [hsplit.nearest.1, hsplit'.nearest.1]
  rcases hnear with hlast | ⟨first, hfirst, hfar⟩
  · rw [hlast]
  · rw [List.forall_mem_append] at hfar
    rw [hfirst, nearer_of_far fun a ha => hfar.1 a (List.mem_of_getLast? ha),
      nearer_of_far fun a ha => hfar.2 a (List.mem_of_getLast? ha)]

theorem getLast?_eq (h : AlikeFrom stamp history kept) : history.getLast? = kept.getLast? := by
  obtain ⟨early, early', late, rfl, rfl, -, -, hnear⟩ := h
  rcases List.eq_nil_or_concat late with rfl | ⟨before, last, rfl⟩
  · rcases hnear with hlast | ⟨first, hfirst, -⟩
    · simpa using hlast
    · simp at hfirst
  · simp [List.getLast?_append]

/-- The samples that a correction at the time releases do not show from then on: they lie before the
matched sample, or farther from the time than it. -/
theorem release (h : AlikeFrom stamp history kept) :
    AlikeFrom stamp (history.drop (nearestIndex history stamp)) kept := by
  have hmatch := h.nearest_eq
  obtain ⟨early, early', late, rfl, rfl, hsplit, hsplit', -⟩ := h
  rw [hsplit.nearest.1, hsplit'.nearest.1] at hmatch
  rcases hsplit.nearest.2 with ⟨hfirst, hdrop⟩ | ⟨last, hlast, hchosen, hdrop⟩
  · rw [hdrop]
    have hnone : SplitAt stamp [] late := ⟨hsplit.inOrder_late, by simp, hsplit.late⟩
    refine ⟨[], early', late, rfl, rfl, hnone, hsplit', ?_⟩
    rw [hmatch] at hfirst
    rcases hsplit'.far_of_nearer hfirst with rfl | ⟨first, hhead, hfar⟩
    · exact .inl rfl
    · exact .inr ⟨first, hhead, by simpa using hfar⟩
  · rw [hdrop]
    obtain ⟨before, rfl⟩ := List.getLast?_eq_some_iff.mp hlast
    refine ⟨[last], early', late, rfl, rfl, hsplit.suffix, hsplit', .inl ?_⟩
    rw [hmatch] at hchosen
    rcases nearer_eq_some hchosen with hend | hhead
    · exact hend.symm
    · have hlt := hsplit.early last (by simp)
      exact absurd (hsplit.late last (List.mem_of_head? hhead)) (not_le.mpr hlt)

end AlikeFrom

/-! ## Trajectories -/

namespace Trajectory

variable {K : Type} [Scalar K]

/-- A correction that releases nothing. -/
def updateAnchorKeeping (t : Trajectory K) (stamp : K) (T_world_imu : Pose K) : Trajectory K :=
  match t.nearest? stamp with
  | none => t
  | some s => { t with anchor := T_world_imu.compose s.pose.inverse }

/-- What a trajectory is told: a sample or a correction. -/
inductive Event (K : Type) where
  | sample (stamp : K) (T_odom_imu : Pose K)
  | correction (stamp : K) (T_world_imu : Pose K)

/-- The stamp of an event that is a correction. -/
def Event.correction? {K : Type} : Event K → Option K
  | .sample _ _ => none
  | .correction stamp _ => some stamp

/-- The stamps of the corrections among events. -/
def corrections {K : Type} (events : List (Event K)) : List K :=
  events.filterMap Event.correction?

/-- What an event shows: the anchor and the latest stamp behind it, and of a correction the sample
that it is matched with and what it gives to say. -/
structure View (K : Type) where
  anchor : Pose K
  latest : Option K
  matched : Option (Sample K) := none
  notices : List (Notice K) := []

/-- One event, by a rule for corrections. -/
def follow (correct : Trajectory K → K → Pose K → Trajectory K) (t : Trajectory K) :
    Event K → Trajectory K × View K
  | .sample stamp T =>
    let after := t.add stamp T
    (after, { anchor := after.anchor, latest := after.latest? })
  | .correction stamp T =>
    let after := correct t stamp T
    (after, {
      anchor := after.anchor
      latest := after.latest?
      matched := t.nearest? stamp
      notices := t.anchorNotices stamp })

/-- What events show, one after the other. -/
def observe (correct : Trajectory K → K → Pose K → Trajectory K) :
    List (Event K) → Trajectory K → List (View K)
  | [], _ => []
  | e :: rest, t => (t.follow correct e).2 :: observe correct rest (t.follow correct e).1

/-- The trajectories agree but for samples that no correction from a time on can tell. -/
structure AlikeFrom (stamp : ℝ) (t r : Trajectory ℝ) : Prop where
  tolerance : t.tolerance = r.tolerance
  anchor : t.anchor = r.anchor
  history : LiveMap.AlikeFrom stamp t.history r.history

namespace AlikeFrom

variable {stamp : ℝ} {t r : Trajectory ℝ}

theorem later (h : AlikeFrom stamp t r) {stamp' : ℝ} (hle : stamp ≤ stamp') :
    AlikeFrom stamp' t r :=
  ⟨h.tolerance, h.anchor, h.history.later hle⟩

theorem add (h : AlikeFrom stamp t r) (stamp' : ℝ) (T : Pose ℝ) :
    AlikeFrom stamp (t.add stamp' T) (r.add stamp' T) :=
  ⟨h.tolerance, h.anchor, h.history.insertSample _⟩

theorem nearest?_eq (h : AlikeFrom stamp t r) : t.nearest? stamp = r.nearest? stamp :=
  h.history.nearest_eq

theorem latest?_eq (h : AlikeFrom stamp t r) : t.latest? = r.latest? := by
  rw [latest?, latest?, h.history.getLast?_eq]

theorem anchorNotices_eq (h : AlikeFrom stamp t r) :
    t.anchorNotices stamp = r.anchorNotices stamp := by
  rw [anchorNotices, anchorNotices, h.nearest?_eq, h.tolerance]

theorem updateAnchor (h : AlikeFrom stamp t r) (T : Pose ℝ) :
    AlikeFrom stamp (t.updateAnchor stamp T) (r.updateAnchorKeeping stamp T) := by
  rw [Trajectory.updateAnchor, updateAnchorKeeping, h.nearest?_eq]
  cases r.nearest? stamp with
  | none => exact h
  | some s => exact ⟨h.tolerance, rfl, h.history.release⟩

theorem follow_sample (h : AlikeFrom stamp t r) (stamp' : ℝ) (T : Pose ℝ) :
    (t.follow Trajectory.updateAnchor (.sample stamp' T)).2 =
        (r.follow updateAnchorKeeping (.sample stamp' T)).2 ∧
      AlikeFrom stamp (t.follow Trajectory.updateAnchor (.sample stamp' T)).1
        (r.follow updateAnchorKeeping (.sample stamp' T)).1 := by
  have hadd := h.add stamp' T
  refine ⟨?_, hadd⟩
  simp only [follow, hadd.anchor, hadd.latest?_eq]

theorem follow_correction (h : AlikeFrom stamp t r) (T : Pose ℝ) :
    (t.follow Trajectory.updateAnchor (.correction stamp T)).2 =
        (r.follow updateAnchorKeeping (.correction stamp T)).2 ∧
      AlikeFrom stamp (t.follow Trajectory.updateAnchor (.correction stamp T)).1
        (r.follow updateAnchorKeeping (.correction stamp T)).1 := by
  have hupdate := h.updateAnchor T
  refine ⟨?_, hupdate⟩
  simp only [follow, hupdate.anchor, hupdate.latest?_eq, h.nearest?_eq, h.anchorNotices_eq]

/-- By induction on the events: alike from the stamp of the latest correction on. -/
theorem observe_eq {events : List (Event ℝ)} (h : AlikeFrom stamp t r)
    (hcorrections : (stamp :: corrections events).Pairwise (· ≤ ·)) :
    observe Trajectory.updateAnchor events t = observe updateAnchorKeeping events r := by
  induction events generalizing stamp t r with
  | nil => rfl
  | cons e rest ih =>
    cases e with
    | sample stamp' T =>
      obtain ⟨hview, hnext⟩ := h.follow_sample stamp' T
      rw [observe, observe, hview, ih hnext hcorrections]
    | correction stamp' T =>
      obtain ⟨hle, hrest⟩ := List.pairwise_cons.mp hcorrections
      have hnow := h.later (hle stamp' List.mem_cons_self)
      obtain ⟨hview, hnext⟩ := hnow.follow_correction T
      rw [observe, observe, hview, ih hnext hrest]

end AlikeFrom

/-- Where the stamps of corrections do not fall, a trajectory that releases samples shows after
every event what one shows that keeps them all. -/
theorem observe_updateAnchor (tolerance : ℝ) {events : List (Event ℝ)}
    (h : (corrections events).Pairwise (· ≤ ·)) :
    observe updateAnchor events (start tolerance) =
      observe updateAnchorKeeping events (start tolerance) := by
  have halike (stamp : ℝ) : AlikeFrom stamp (start tolerance) (start tolerance) :=
    ⟨rfl, rfl, .refl List.Pairwise.nil stamp⟩
  cases hstamps : corrections events with
  | nil => exact (halike 0).observe_eq (by simp [hstamps])
  | cons first stamps =>
    refine (halike first).observe_eq ?_
    rw [hstamps] at h ⊢
    refine List.pairwise_cons.mpr ⟨fun stamp hstamp => ?_, h⟩
    rcases List.mem_cons.mp hstamp with rfl | hstamp
    · exact le_refl _
    · exact (List.pairwise_cons.mp h).1 stamp hstamp

/-- The first correction releases the first sample, and the third sample comes late for it. -/
noncomputable def lateSample : List (Event ℝ) :=
  [.sample 0 .identity, .sample 1 .identity, .correction 1 .identity, .sample (-1) .identity,
    .correction 1 .identity]

theorem observe_lateSample :
    (corrections lateSample).Pairwise (· ≤ ·) ∧
      observe updateAnchor lateSample (start 1) =
        observe updateAnchorKeeping lateSample (start 1) := by
  have hstamps : corrections lateSample = [1, 1] := rfl
  have h : (corrections lateSample).Pairwise (· ≤ ·) := by simp [hstamps]
  exact ⟨h, observe_updateAnchor 1 h⟩

end Trajectory

end LiveMap
