import LiveMap.Proofs.FrameTree.Climbing
import LiveMap.Proofs.Geometry.Rotation

/-!
# Ascents in a frame tree

An ascent goes from a frame to its parent, and on from there, and multiplies the relations that it
passes. A frame has one parent at most, so one of two ascents from the same frame goes on where the
other one ends. Where climbing ends, the chain holds the product of every ascent.

## Main definitions

* `FrameTree.Ascent`: a way up, with the product of its relations.
* `FrameTree.Resolves`: climbing from the frame comes to an end.
* `FrameTree.IsProper`: all relations are proper poses.

## Main statements

* `Ascent.linear`, `Ascent.unique`: ascents from one frame.
* `lookup_eq_ok_iff`: a relation is told exactly where two ascents meet, and is the product of both,
  with the one of the target undone.
-/

namespace LiveMap.FrameTree

section Frames

variable {K : Type} [Scalar K]

/-- From a frame to itself or an ancestor, by a pose that is the product of the relations passed:
the pose of the frame in the ancestor. -/
inductive Ascent (t : FrameTree K) : String → Pose K → String → Prop
  | stay (frame : String) : Ascent t frame .identity frame
  | link {frame top : String} {link : FrameLink K} {T : Pose K}
      (hlink : t.link? frame = some link) (habove : Ascent t link.parent T top) :
      Ascent t frame (T.compose link.pose) top

/-- The frame is known, and climbing from it comes to an end. -/
def Resolves (t : FrameTree K) (frame : String) : Prop := ∃ chain, t.chain frame = .ok chain

variable {t : FrameTree K}

theorem exists_climb {frame : String} {chain : FrameChain K} (h : t.chain frame = .ok chain) :
    t.climb [] frame .identity = .ok chain := by
  unfold FrameTree.chain at h
  split at h
  next => exact h
  next => cases h

theorem resolves_of_lookup {target source : String} {X : Pose K}
    (h : t.lookup target source = .ok X) : t.Resolves target ∧ t.Resolves source := by
  obtain ⟨toTarget, htarget, hrest⟩ := exists_of_bind_eq_ok h
  obtain ⟨toSource, hsource, -⟩ := exists_of_bind_eq_ok hrest
  exact ⟨⟨toTarget, htarget⟩, ⟨toSource, hsource⟩⟩

end Frames

variable {t : FrameTree ℝ}

/-! ## The group of relations -/

/-- All relations are proper poses. -/
def IsProper (t : FrameTree ℝ) : Prop :=
  ∀ frame link, t.link? frame = some link → link.pose.IsProper

theorem Ascent.isProper {frame top : String} {T : Pose ℝ} (h : t.Ascent frame T top)
    (ht : t.IsProper) : T.IsProper := by
  induction h with
  | stay frame => exact Pose.isProper_identity
  | link hlink _ ih => exact ih.compose (ht _ _ hlink)

theorem Ascent.trans {frame middle top : String} {T U : Pose ℝ} (h : t.Ascent frame T middle)
    (h' : t.Ascent middle U top) : t.Ascent frame (U.compose T) top := by
  induction h with
  | stay frame => simpa using h'
  | link hlink _ ih =>
    rw [← Pose.compose_assoc]
    exact .link hlink (ih h')

theorem Ascent.of_link {frame : String} {link : FrameLink ℝ} (hlink : t.link? frame = some link) :
    t.Ascent frame link.pose link.parent := by
  simpa using Ascent.link hlink (.stay _)

/-- By induction on the first ascent: the second one ends here, or takes the same link. -/
theorem Ascent.linear {frame middle top : String} {T U : Pose ℝ} (h : t.Ascent frame T middle)
    (h' : t.Ascent frame U top) :
    (∃ V, t.Ascent middle V top ∧ U = V.compose T) ∨
      ∃ V, t.Ascent top V middle ∧ T = V.compose U := by
  induction h generalizing U with
  | stay frame => exact .inl ⟨U, h', (Pose.compose_identity U).symm⟩
  | @link frame middle link T hlink habove ih =>
    cases h' with
    | stay => exact .inr ⟨_, .link hlink habove, (Pose.compose_identity _).symm⟩
    | @link _ _ link' U hlink' habove' =>
      obtain rfl : link = link' := Option.some.inj (hlink.symm.trans hlink')
      obtain ⟨V, hV, rfl⟩ | ⟨V, hV, rfl⟩ := ih habove'
      · exact .inl ⟨V, hV, Pose.compose_assoc _ _ _⟩
      · exact .inr ⟨V, hV, Pose.compose_assoc _ _ _⟩

/-! ## Chains hold the products -/

theorem ascent_of_mem_climb {passed : List String} {frame : String} {T : Pose ℝ}
    {chain : FrameChain ℝ} (h : t.climb passed frame T = .ok chain) {top : String} {S : Pose ℝ}
    (hmem : (top, S) ∈ chain) : ∃ U, t.Ascent frame U top ∧ S = U.compose T := by
  induction chain generalizing passed frame T with
  | nil => cases hmem
  | cons q rest ih =>
    have hhead : (top, S) = (frame, T) → ∃ U, t.Ascent frame U top ∧ S = U.compose T := by
      rintro ⟨⟩
      exact ⟨_, .stay _, (Pose.identity_compose _).symm⟩
    obtain ⟨-, ⟨-, hchain⟩ | ⟨link, above, hlink, habove, hchain⟩⟩ := climb_cases h
    · obtain ⟨rfl, rfl⟩ := List.cons.inj hchain
      exact hhead (List.mem_singleton.mp hmem)
    · obtain ⟨rfl, rfl⟩ := List.cons.inj hchain
      rcases List.mem_cons.mp hmem with heq | hrest
      · exact hhead heq
      · obtain ⟨U, hU, rfl⟩ := ih habove hrest
        exact ⟨_, .link hlink hU, (Pose.compose_assoc _ _ _).symm⟩

/-- By induction on the ascent: the frames behind the first one differ from it, so its product is
found where the ascent ends. -/
theorem lookup_of_climb {passed : List String} {frame top : String} {T U : Pose ℝ}
    {chain : FrameChain ℝ} (hU : t.Ascent frame U top)
    (h : t.climb passed frame T = .ok chain) : chain.lookup top = some (U.compose T) := by
  induction hU generalizing passed T chain with
  | stay frame =>
    obtain ⟨rest, rfl⟩ := exists_cons_of_climb h
    simp
  | @link frame top link U hlink _ ih =>
    obtain ⟨above, habove, rfl⟩ := exists_above_of_climb h hlink
    have hfound := ih habove
    -- The climb behind `frame` does not come back to it.
    have hne : top ≠ frame := by
      rintro rfl
      exact not_mem_of_climb habove (mem_of_lookup hfound) (List.mem_cons_self ..)
    rw [List.lookup_cons, beq_eq_false_iff_ne.mpr hne, Pose.compose_assoc]
    exact hfound

theorem Ascent.unique {frame top : String} {T U : Pose ℝ} (h : t.Ascent frame T top)
    (h' : t.Ascent frame U top) (hframe : t.Resolves frame) : T = U := by
  obtain ⟨chain, hchain⟩ := hframe
  have hclimb := exists_climb hchain
  have hsame := (lookup_of_climb h hclimb).symm.trans (lookup_of_climb h' hclimb)
  simpa using hsame

/-! ## Relations by ascents -/

/-- Two frames that meet have the same relation by any frame above. -/
theorem relation_of_above (ht : t.IsProper) {target source low high : String}
    {T S U T' S' : Pose ℝ} (htarget : t.Resolves target) (hsource : t.Resolves source)
    (hT : t.Ascent target T low) (hS : t.Ascent source S low) (hU : t.Ascent low U high)
    (hT' : t.Ascent target T' high) (hS' : t.Ascent source S' high) :
    T'.inverse.compose S' = T.inverse.compose S := by
  obtain rfl := hT'.unique (hT.trans hU) htarget
  obtain rfl := hS'.unique (hS.trans hU) hsource
  rw [Pose.IsProper.inverse_of_compose (hU.isProper ht) (hT.isProper ht), Pose.compose_assoc,
    (hU.isProper ht).inverse_compose_cancel]

/-- Two frames that meet twice have the same relation by both: one of the two frames where they meet
lies above the other. -/
theorem relation_unique (ht : t.IsProper) {target source top top' : String}
    {T S T' S' : Pose ℝ} (htarget : t.Resolves target) (hsource : t.Resolves source)
    (hT : t.Ascent target T top) (hS : t.Ascent source S top)
    (hT' : t.Ascent target T' top') (hS' : t.Ascent source S' top') :
    T.inverse.compose S = T'.inverse.compose S' := by
  obtain ⟨V, hV, -⟩ | ⟨V, hV, -⟩ := hT.linear hT'
  · exact (relation_of_above ht htarget hsource hT hS hV hT' hS').symm
  · exact relation_of_above ht htarget hsource hT' hS' hV hT hS

/-- Where two chains meet, two ascents do. -/
theorem exists_ascents_of_meet? {target source : String} {toTarget toSource : FrameChain ℝ}
    (htarget : t.chain target = .ok toTarget) (hsource : t.chain source = .ok toSource)
    {T S : Pose ℝ} (hmeet : meet? toTarget toSource = some (T, S)) :
    ∃ top, t.Ascent target T top ∧ t.Ascent source S top := by
  obtain ⟨top, hT, hS⟩ := exists_of_meet? hmeet
  obtain ⟨U, hU, rfl⟩ := ascent_of_mem_climb (exists_climb htarget) hT
  obtain ⟨V, hV, rfl⟩ := ascent_of_mem_climb (exists_climb hsource) hS
  rw [Pose.compose_identity, Pose.compose_identity]
  exact ⟨top, hU, hV⟩

/-- A relation is told exactly if both frames resolve and have an ancestor in common, and it is the
product of the relations on the way from the source up to it and from there down to the target. -/
theorem lookup_eq_ok_iff (ht : t.IsProper) {target source : String} {X : Pose ℝ} :
    t.lookup target source = .ok X ↔ t.Resolves target ∧ t.Resolves source ∧
      ∃ top T S, t.Ascent target T top ∧ t.Ascent source S top ∧ X = T.inverse.compose S := by
  constructor
  · intro h
    obtain ⟨htarget, hsource⟩ := resolves_of_lookup h
    obtain ⟨toTarget, hchain⟩ := htarget
    obtain ⟨toSource, hchain'⟩ := hsource
    refine ⟨⟨_, hchain⟩, ⟨_, hchain'⟩, ?_⟩
    cases hmeet : meet? toTarget toSource with
    | none =>
      rw [lookup, hchain, hchain'] at h
      simp only [bind, Except.bind, hmeet] at h
      cases h
    | some p =>
      obtain ⟨T, S⟩ := p
      obtain ⟨top, hT, hS⟩ := exists_ascents_of_meet? hchain hchain' hmeet
      rw [lookup_of_chains hchain hchain' hmeet] at h
      exact ⟨top, T, S, hT, hS, (Except.ok.inj h).symm⟩
  · rintro ⟨⟨toTarget, hchain⟩, ⟨toSource, hchain'⟩, top, T, S, hT, hS, rfl⟩
    have hfound := lookup_of_climb hT (exists_climb hchain)
    have hfound' := lookup_of_climb hS (exists_climb hchain')
    obtain ⟨T', S', hmeet⟩ := exists_meet? hfound (mem_of_lookup hfound')
    obtain ⟨top', hT', hS'⟩ := exists_ascents_of_meet? hchain hchain' hmeet
    rw [lookup_of_chains hchain hchain' hmeet,
      relation_unique ht ⟨_, hchain⟩ ⟨_, hchain'⟩ hT hS hT' hS']

end LiveMap.FrameTree
