import LiveMap.FrameTree

/-!
# Climbing a frame tree

A chain is made of steps: it ends at a frame without link, and goes on with the parent of a frame
that has one. What a link says about other frames does not matter.

## Main statements

* `FrameTree.climb_root`, `FrameTree.climb_of_link`, `FrameTree.climb_cases`: one step of a chain.
* `FrameTree.exists_cons_of_climb`, `FrameTree.exists_above_of_climb`: where a chain begins, and how
  it goes on.
* `FrameTree.not_mem_of_climb`: a climb meets no frame twice.
* `FrameTree.lookup_of_chains`: a relation by the first frame of the source that the target shares.
-/

namespace LiveMap.FrameTree

variable {K : Type}

theorem knows_child {t : FrameTree K} {frame : String} {link : FrameLink K}
    (h : t.link? frame = some link) : t.Knows frame :=
  .inl (List.mem_map.mpr ⟨_, mem_of_link? h, rfl⟩)

theorem knows_parent {t : FrameTree K} {frame : String} {link : FrameLink K}
    (h : t.link? frame = some link) : t.Knows link.parent :=
  .inr (List.mem_map.mpr ⟨_, mem_of_link? h, rfl⟩)

theorem mem_of_lookup {chain : FrameChain K} {frame : String} {T : Pose K}
    (h : chain.lookup frame = some T) : (frame, T) ∈ chain := by
  induction chain with
  | nil => cases h
  | cons p rest ih =>
    rw [List.lookup_cons] at h
    split at h
    next heq =>
      obtain rfl := Option.some.inj h
      exact List.mem_cons.mpr (.inl (Prod.ext (beq_iff_eq.mp heq) rfl))
    next => exact List.mem_cons_of_mem _ (ih h)

/-- Chains that meet do so in a frame of both. -/
theorem exists_of_meet? {target source : FrameChain K} {T S : Pose K}
    (h : meet? target source = some (T, S)) :
    ∃ frame, (frame, T) ∈ target ∧ (frame, S) ∈ source := by
  obtain ⟨⟨frame, S'⟩, hsource, hfound⟩ := List.exists_of_findSome?_eq_some h
  obtain ⟨T', hT', heq⟩ := Option.map_eq_some_iff.mp hfound
  obtain ⟨rfl, rfl⟩ := Prod.mk.inj heq
  exact ⟨frame, mem_of_lookup hT', hsource⟩

/-- Chains with a frame in common meet. -/
theorem exists_meet? {target source : FrameChain K} {frame : String} {T S : Pose K}
    (htarget : target.lookup frame = some T) (hsource : (frame, S) ∈ source) :
    ∃ T' S', meet? target source = some (T', S') := by
  have hmeet : (meet? target source).isSome := by
    rw [meet?, List.findSome?_isSome_iff]
    exact ⟨_, hsource, by simp [htarget]⟩
  obtain ⟨⟨T', S'⟩, hfound⟩ := Option.isSome_iff_exists.mp hmeet
  exact ⟨T', S', hfound⟩

variable [Scalar K]

theorem climb_root {t : FrameTree K} {passed : List String} {frame : String}
    (hpassed : frame ∉ passed) (h : t.link? frame = none) (T : Pose K) :
    t.climb passed frame T = .ok [(frame, T)] := by
  rw [climb, dif_neg hpassed]
  split
  · rfl
  · simp_all

/-- A climb from a frame with a parent goes as the one from the parent does. -/
theorem climb_of_link {t : FrameTree K} {passed : List String} {frame : String}
    {link : FrameLink K} (hpassed : frame ∉ passed) (h : t.link? frame = some link) (T : Pose K) :
    t.climb passed frame T =
      (t.climb (frame :: passed) link.parent (link.pose.compose T)).map ((frame, T) :: ·) := by
  rw [climb, dif_neg hpassed]
  split
  · simp_all
  · next link' h' =>
    obtain rfl : link' = link := by simpa [h] using h'.symm
    cases t.climb (frame :: passed) link'.parent (link'.pose.compose T) <;> rfl

/-- A climb that succeeds ends at its first frame, or goes on with the parent. -/
theorem climb_cases {t : FrameTree K} {passed : List String} {frame : String} {T : Pose K}
    {chain : FrameChain K} (h : t.climb passed frame T = .ok chain) :
    frame ∉ passed ∧ (t.link? frame = none ∧ chain = [(frame, T)] ∨
      ∃ link above, t.link? frame = some link ∧
        t.climb (frame :: passed) link.parent (link.pose.compose T) = .ok above ∧
        chain = (frame, T) :: above) := by
  rw [climb] at h
  split at h
  next => cases h
  next hpassed =>
    refine ⟨hpassed, ?_⟩
    split at h
    next hroot => exact .inl ⟨hroot, (Except.ok.inj h).symm⟩
    next link hlink =>
      split at h
      next above habove => exact .inr ⟨link, above, hlink, habove, (Except.ok.inj h).symm⟩
      next => cases h

/-- A chain begins with the frame that is climbed from. -/
theorem exists_cons_of_climb {t : FrameTree K} {passed : List String} {frame : String} {T : Pose K}
    {chain : FrameChain K} (h : t.climb passed frame T = .ok chain) :
    ∃ rest, chain = (frame, T) :: rest := by
  obtain ⟨-, ⟨-, hchain⟩ | ⟨_, above, -, -, hchain⟩⟩ := climb_cases h
  · exact ⟨[], hchain⟩
  · exact ⟨above, hchain⟩

/-- A climb from a frame with a parent goes on there. -/
theorem exists_above_of_climb {t : FrameTree K} {passed : List String} {frame : String} {T : Pose K}
    {chain : FrameChain K} (h : t.climb passed frame T = .ok chain) {link : FrameLink K}
    (hlink : t.link? frame = some link) :
    ∃ above, t.climb (frame :: passed) link.parent (link.pose.compose T) = .ok above ∧
      chain = (frame, T) :: above := by
  obtain ⟨-, ⟨hroot, -⟩ | ⟨link', above, hlink', habove, hchain⟩⟩ := climb_cases h
  · rw [hlink] at hroot
    cases hroot
  · obtain rfl : link = link' := Option.some.inj (hlink.symm.trans hlink')
    exact ⟨above, habove, hchain⟩

/-- A climb does not come back to a frame that was passed. -/
theorem not_mem_of_climb {t : FrameTree K} {passed : List String} {frame : String} {T : Pose K}
    {chain : FrameChain K} (h : t.climb passed frame T = .ok chain) {p : String × Pose K}
    (hp : p ∈ chain) : p.1 ∉ passed := by
  induction chain generalizing passed frame T with
  | nil => cases hp
  | cons q rest ih =>
    obtain ⟨hpassed, ⟨-, hchain⟩ | ⟨link, above, -, habove, hchain⟩⟩ := climb_cases h
    · obtain ⟨rfl, rfl⟩ := List.cons.inj hchain
      obtain rfl := List.mem_singleton.mp hp
      exact hpassed
    · obtain ⟨rfl, rfl⟩ := List.cons.inj hchain
      rcases List.mem_cons.mp hp with rfl | hrest
      · exact hpassed
      · exact fun hmem => ih habove hrest (List.mem_cons_of_mem _ hmem)

theorem lookup_of_chains {t : FrameTree K} {target source : String}
    {toTarget toSource : FrameChain K} (htarget : t.chain target = .ok toTarget)
    (hsource : t.chain source = .ok toSource) {T S : Pose K}
    (hmeet : meet? toTarget toSource = some (T, S)) :
    t.lookup target source = .ok (T.inverse.compose S) := by
  rw [lookup, htarget, hsource]
  simp only [bind, Except.bind, hmeet]
  rfl

end LiveMap.FrameTree
