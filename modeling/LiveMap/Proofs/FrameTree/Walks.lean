import LiveMap.Proofs.FrameTree.Ascent
import Mathlib.Data.List.Chain
import Mathlib.Logic.Relation

/-!
# Walks in a frame tree

A frame may be told any parent, itself and its descendants included. So the walk from a frame upward
ends at a root, or it runs into a cycle, which need not go through the frame. Climbing finds out
which, and looks at one frame more than there are links at most.

## Main definitions

* `FrameTree.HasParent`: one step of a walk.
* `FrameTree.EndsAt`, `FrameTree.RunsInto`: what can become of a walk.
* `FrameTree.IsWalk`: the frames of a walk that ends.
* `FrameTree.climbWithin`: climbing that gives up after a number of frames.
* `FrameTree.Refused`: why two frames have no relation.

## Main statements

* `FrameTree.climbWithin_eq`: climbing never takes more frames than links, and one.
* `FrameTree.isWalk_of_climb`, `FrameTree.runsInto_of_climb`: what climbing finds.
* `FrameTree.Ascent.lookup`, `FrameTree.Ascent.lookup_inverse`: a frame and one above it.
* `FrameTree.lookup_outcome`: which frames have a relation, and why others have none.
-/

namespace LiveMap.FrameTree

variable {K : Type}

/-! ## Walks -/

/-- A link leads from a frame to its parent. -/
def HasParent (t : FrameTree K) (frame parent : String) : Prop :=
  ∃ link, t.link? frame = some link ∧ link.parent = parent

/-- The walk from a frame ends at a frame without parent. -/
structure EndsAt (t : FrameTree K) (frame root : String) : Prop where
  reaches : Relation.ReflTransGen t.HasParent frame root
  isRoot : t.link? root = none

/-- The walk from a frame comes to another one, and from there back to it. -/
structure RunsInto (t : FrameTree K) (frame entry : String) : Prop where
  reaches : Relation.ReflTransGen t.HasParent frame entry
  returns : Relation.TransGen t.HasParent entry entry

/-- Frames that begin with one, of which each is followed by its parent and none comes twice, up to
a frame without parent. -/
structure IsWalk (t : FrameTree K) (frame : String) (frames : List String) : Prop where
  head : frames.head? = some frame
  links : frames.IsChain t.HasParent
  nodup : frames.Nodup
  last : ∃ root ∈ frames.getLast?, t.link? root = none

variable {t : FrameTree K} {frame parent root entry : String}

theorem HasParent.unique (t : FrameTree K) : Relator.RightUnique t.HasParent := by
  rintro frame _ _ ⟨link, hlink, rfl⟩ ⟨link', hlink', rfl⟩
  rw [Option.some.inj (hlink.symm.trans hlink')]

theorem not_hasParent_of_root (h : t.link? root = none) : ¬ t.HasParent root parent := by
  rintro ⟨link, hlink, -⟩
  rw [h] at hlink
  cases hlink

theorem eq_of_reaches_of_root (h : t.link? root = none)
    (hreaches : Relation.ReflTransGen t.HasParent root frame) : frame = root := by
  rcases hreaches.cases_head with heq | ⟨_, hstep, -⟩
  · exact heq.symm
  · exact absurd hstep (not_hasParent_of_root h)

namespace EndsAt

theorem of_reaches (h : t.EndsAt frame root)
    (hreaches : Relation.ReflTransGen t.HasParent frame parent) : t.EndsAt parent root := by
  refine ⟨?_, h.isRoot⟩
  rcases h.reaches.total_of_right_unique (HasParent.unique t) hreaches with hbeyond | hbelow
  · rw [eq_of_reaches_of_root h.isRoot hbeyond]
  · exact hbelow

theorem unique (h : t.EndsAt frame root) {root' : String} (h' : t.EndsAt frame root') :
    root = root' :=
  eq_of_reaches_of_root h'.isRoot (h.of_reaches h'.reaches).reaches

/-- By induction on the walk: a root has no parent, and a frame on a cycle has one that is on it. -/
theorem not_returns (h : t.EndsAt frame root) : ¬ Relation.TransGen t.HasParent frame frame := by
  obtain ⟨hreaches, hroot⟩ := h
  induction hreaches using Relation.ReflTransGen.head_induction_on with
  | refl =>
    intro hreturns
    obtain ⟨_, hstep, -⟩ := Relation.TransGen.head'_iff.mp hreturns
    exact not_hasParent_of_root hroot hstep
  | head hstep _ ih =>
    intro hreturns
    obtain ⟨_, hstep', hrest⟩ := Relation.TransGen.head'_iff.mp hreturns
    obtain rfl := HasParent.unique t hstep hstep'
    exact ih (Relation.TransGen.tail' hrest hstep)

/-- A walk that ends runs into no cycle. -/
theorem not_runsInto (h : t.EndsAt frame root) : ¬ t.RunsInto frame entry :=
  fun hruns => (h.of_reaches hruns.reaches).not_returns hruns.returns

end EndsAt

/-- All frames of a walk lie above its first. -/
theorem IsWalk.reaches {frames : List String} (h : t.IsWalk frame frames) {x : String}
    (hx : x ∈ frames) : Relation.ReflTransGen t.HasParent frame x := by
  obtain ⟨rest, rfl⟩ := List.head?_eq_some_iff.mp h.head
  have habove : (frame :: rest).IsChain (Relation.ReflTransGen t.HasParent) :=
    h.links.imp fun _ _ hstep => .single hstep
  rcases List.mem_cons.mp hx with rfl | hrest
  · exact .refl
  · exact List.rel_of_pairwise_cons (List.isChain_iff_pairwise.mp habove) hrest

theorem IsWalk.exists_endsAt {frames : List String} (h : t.IsWalk frame frames) :
    ∃ root ∈ frames, t.EndsAt frame root := by
  obtain ⟨root, hlast, hroot⟩ := h.last
  have hmem : root ∈ frames := List.mem_of_getLast? hlast
  exact ⟨root, hmem, h.reaches hmem, hroot⟩

/-! ## Climbing -/

variable [Scalar K]

/-- A climb that succeeds goes along a walk, by frames that were not passed, and takes a link for
each of them but one. -/
theorem isWalk_of_climb {passed : List String} {T : Pose K} {chain : FrameChain K}
    (h : t.climb passed frame T = .ok chain) :
    t.IsWalk frame (chain.map Prod.fst) ∧ chain.length ≤ t.remaining passed + 1 := by
  induction chain generalizing passed frame T with
  | nil =>
    obtain ⟨_, hchain⟩ := exists_cons_of_climb h
    cases hchain
  | cons p rest ih =>
    obtain ⟨hpassed, ⟨hroot, hchain⟩ | ⟨link, above, hlink, habove, hchain⟩⟩ := climb_cases h
    · obtain ⟨rfl, rfl⟩ := List.cons.inj hchain
      exact ⟨⟨rfl, .singleton _, List.nodup_singleton _, frame, rfl, hroot⟩, Nat.le_add_left _ _⟩
    · obtain ⟨rfl, rfl⟩ := List.cons.inj hchain
      obtain ⟨hwalk, hlength⟩ := ih habove
      have hfewer := remaining_cons_lt hpassed hlink
      refine ⟨⟨rfl, ?_, ?_, ?_⟩, ?_⟩
      · refine hwalk.links.cons fun x hx => ⟨link, hlink, ?_⟩
        rw [hwalk.head] at hx
        exact Option.some.inj hx
      · refine List.nodup_cons.mpr ⟨fun hmem => ?_, hwalk.nodup⟩
        -- The climb behind `frame` does not come back to it.
        obtain ⟨q, hq, hname⟩ := List.mem_map.mp hmem
        exact not_mem_of_climb habove hq (hname ▸ List.mem_cons_self)
      · obtain ⟨root, hlast, hroot⟩ := hwalk.last
        refine ⟨root, ?_, hroot⟩
        rw [List.map_cons, List.getLast?_cons, hlast]
        rfl
      · simp only [List.length_cons]
        omega

/-- A climb that fails has come to a frame for the second time, or to one that was passed before. -/
theorem runsInto_of_climb {passed : List String} {T : Pose K} {e : FrameError}
    (h : t.climb passed frame T = .error e) :
    ∃ entry, e = .cycle entry ∧ Relation.ReflTransGen t.HasParent frame entry ∧
      (entry ∈ passed ∨ Relation.TransGen t.HasParent entry entry) := by
  fun_induction t.climb passed frame T with
  | case1 passed frame T hpassed =>
    obtain rfl := Except.error.inj h
    exact ⟨frame, rfl, .refl, .inl hpassed⟩
  | case2 => cases h
  | case3 => cases h
  | case4 passed frame T hpassed link hlink e' habove ih =>
    obtain rfl := Except.error.inj h
    have hstep : t.HasParent frame link.parent := ⟨link, hlink, rfl⟩
    obtain ⟨entry, rfl, hreaches, hmet⟩ := ih habove
    refine ⟨entry, rfl, .head hstep hreaches, ?_⟩
    rcases hmet with hmet | hreturns
    · rcases List.mem_cons.mp hmet with rfl | hmet
      · exact .inr (.head' hstep hreaches)
      · exact .inl hmet
    · exact .inr hreturns

/-- Climbing that looks at a number of frames at most, and tells nothing if they do not suffice. -/
def climbWithin (t : FrameTree K) : Nat → List String → String → Pose K →
    Option (Except FrameError (FrameChain K))
  | 0, _, _, _ => none
  | rounds + 1, passed, frame, T =>
    if frame ∈ passed then some (.error (.cycle frame))
    else
      match t.link? frame with
      | none => some (.ok [(frame, T)])
      | some link =>
        (t.climbWithin rounds (frame :: passed) link.parent (link.pose.compose T)).map
          (Except.map ((frame, T) :: ·))

/-- Each frame that is looked at and is neither a root nor passed before takes a link. -/
theorem climbWithin_eq {rounds : Nat} {passed : List String} {T : Pose K}
    (h : t.remaining passed < rounds) :
    t.climbWithin rounds passed frame T = some (t.climb passed frame T) := by
  induction rounds generalizing passed frame T with
  | zero => exact absurd h (Nat.not_lt_zero _)
  | succ rounds ih =>
    unfold climbWithin
    split
    next hpassed => rw [climb, dif_pos hpassed]
    next hpassed =>
      split
      next hroot => rw [climb_root hpassed hroot]
      next link hlink =>
        have hfewer := remaining_cons_lt hpassed hlink
        rw [ih (by omega), climb_of_link hpassed hlink]
        rfl

/-! ## Chains -/

/-- Why a frame has no chain. -/
inductive Adrift (t : FrameTree K) (frame : String) : FrameError → Prop
  | unknown (h : frame ∉ t.frames) : Adrift t frame (.unknown frame)
  | cycle {entry : String} (h : t.RunsInto frame entry) : Adrift t frame (.cycle entry)

theorem isWalk_of_chain {chain : FrameChain K} (h : t.chain frame = .ok chain) :
    t.IsWalk frame (chain.map Prod.fst) ∧ chain.length ≤ t.links.length + 1 := by
  obtain ⟨hwalk, hlength⟩ := isWalk_of_climb (exists_climb h)
  have hlinks : t.remaining [] ≤ t.links.length := List.countP_le_length
  exact ⟨hwalk, by omega⟩

theorem adrift_of_chain {e : FrameError} (h : t.chain frame = .error e) : t.Adrift frame e := by
  unfold FrameTree.chain at h
  split at h
  next =>
    obtain ⟨entry, rfl, hreaches, hpassed | hreturns⟩ := runsInto_of_climb h
    · exact absurd hpassed List.not_mem_nil
    · exact .cycle ⟨hreaches, hreturns⟩
  next hunknown =>
    obtain rfl := Except.error.inj h
    exact .unknown fun hmem => hunknown (mem_frames.mp hmem)

/-- Climbing comes to an end from the known frames whose walks do. -/
theorem resolves_iff : t.Resolves frame ↔ frame ∈ t.frames ∧ ∃ root, t.EndsAt frame root := by
  constructor
  · rintro ⟨chain, hchain⟩
    obtain ⟨root, -, hends⟩ := (isWalk_of_chain hchain).1.exists_endsAt
    refine ⟨?_, root, hends⟩
    unfold FrameTree.chain at hchain
    split at hchain
    next hknown => exact mem_frames.mpr hknown
    next => cases hchain
  · rintro ⟨hknown, root, hends⟩
    cases hchain : t.chain frame with
    | ok chain => exact ⟨chain, hchain⟩
    | error e =>
      rcases adrift_of_chain hchain with hunknown | hruns
      · exact absurd hknown hunknown
      · exact absurd hruns hends.not_runsInto

/-! ## Up and down the links -/

theorem resolves_root (hknown : t.Knows root) (hroot : t.link? root = none) : t.Resolves root :=
  resolves_iff.mpr ⟨mem_frames.mpr hknown, root, .refl, hroot⟩

theorem Resolves.above {link : FrameLink K} (h : t.Resolves frame)
    (hlink : t.link? frame = some link) : t.Resolves link.parent := by
  obtain ⟨-, root, hends⟩ := resolves_iff.mp h
  have hstep : t.HasParent frame link.parent := ⟨link, hlink, rfl⟩
  exact resolves_iff.mpr ⟨mem_frames.mpr (knows_parent hlink), root,
    hends.of_reaches (.single hstep)⟩

theorem Resolves.below {link : FrameLink K} (h : t.Resolves link.parent)
    (hlink : t.link? frame = some link) : t.Resolves frame := by
  obtain ⟨-, root, hends⟩ := resolves_iff.mp h
  have hstep : t.HasParent frame link.parent := ⟨link, hlink, rfl⟩
  exact resolves_iff.mpr ⟨mem_frames.mpr (knows_child hlink), root, .head hstep hends.reaches,
    hends.isRoot⟩

theorem Ascent.reaches {T : Pose K} (h : t.Ascent frame T parent) :
    Relation.ReflTransGen t.HasParent frame parent := by
  induction h with
  | stay frame => exact .refl
  | link hlink _ ih => exact .head ⟨_, hlink, rfl⟩ ih

theorem Ascent.resolves {T : Pose K} (h : t.Ascent frame T parent) (hparent : t.Resolves parent) :
    t.Resolves frame := by
  induction h with
  | stay frame => exact hparent
  | link hlink _ ih => exact (ih hparent).below hlink

/-- No ascent leads back to a frame that resolves. -/
theorem Resolves.not_ascent_parent {link : FrameLink K} (h : t.Resolves frame)
    (hlink : t.link? frame = some link) {T : Pose K} : ¬ t.Ascent link.parent T frame := by
  intro hback
  obtain ⟨-, root, hends⟩ := resolves_iff.mp h
  exact hends.not_returns (.head' ⟨link, hlink, rfl⟩ hback.reaches)

/-! ## Along an ascent -/

section Along

variable {t : FrameTree ℝ} {frame top : String} {T : Pose ℝ}

/-- By induction on the ascent: a chain that comes to a frame meets the chain of that frame there,
because none of the frames before it lies above it. -/
theorem Ascent.meet?_eq (h : t.Ascent frame T top) (hframe : t.Resolves frame)
    {toTop : FrameChain ℝ} (htop : t.chain top = .ok toTop) {passed : List String} {S : Pose ℝ}
    {chain : FrameChain ℝ} (hchain : t.climb passed frame S = .ok chain) :
    meet? toTop chain = some (.identity, T.compose S) := by
  induction h generalizing passed S chain with
  | stay frame =>
    have hfound := lookup_of_climb (.stay frame) (exists_climb htop)
    obtain ⟨rest, rfl⟩ := exists_cons_of_climb hchain
    simp [meet?, hfound]
  | @link frame top link T hlink habove ih =>
    obtain ⟨above, hclimb, rfl⟩ := exists_above_of_climb hchain hlink
    have hnone : toTop.lookup frame = none := by
      by_contra hsome
      obtain ⟨U, hU⟩ := Option.ne_none_iff_exists'.mp hsome
      obtain ⟨V, hV, -⟩ := ascent_of_mem_climb (exists_climb htop) (mem_of_lookup hU)
      exact hframe.not_ascent_parent hlink (habove.trans hV)
    have hmeet := ih (hframe.above hlink) htop hclimb
    rw [Pose.compose_assoc, ← hmeet]
    simp [meet?, hnone]

/-- The pose of a frame in one above it is the product along the way. -/
theorem Ascent.lookup (h : t.Ascent frame T top) (htop : t.Resolves top) :
    t.lookup top frame = .ok T := by
  obtain ⟨chain, hchain⟩ := h.resolves htop
  obtain ⟨toTop, htop⟩ := htop
  have hmeet := h.meet?_eq ⟨chain, hchain⟩ htop (exists_climb hchain)
  rw [lookup_of_chains htop hchain hmeet]
  simp

/-- The other way round the product is undone. -/
theorem Ascent.lookup_inverse (h : t.Ascent frame T top) (htop : t.Resolves top) :
    t.lookup frame top = .ok T.inverse := by
  obtain ⟨chain, hchain⟩ := h.resolves htop
  obtain ⟨toTop, htop⟩ := htop
  have hfound := lookup_of_climb h (exists_climb hchain)
  have hmeet : meet? chain toTop = some (T.compose .identity, .identity) := by
    obtain ⟨rest, rfl⟩ := exists_cons_of_climb (exists_climb htop)
    simp [meet?, hfound]
  rw [lookup_of_chains hchain htop hmeet]
  simp

end Along

/-! ## Relations -/

/-- Why two frames have no relation. The target is looked at first. -/
inductive Refused (t : FrameTree K) (target source : String) : FrameError → Prop
  | target {e : FrameError} (h : t.Adrift target e) : Refused t target source e
  | source {e : FrameError} (htarget : t.Resolves target) (h : t.Adrift source e) :
    Refused t target source e
  | apart {root root' : String} (htarget : t.EndsAt target root) (hsource : t.EndsAt source root')
    (hne : root ≠ root') : Refused t target source (.notConnected target source)

/-- Both frames are known, no walk from them runs into a cycle, and the walks end at one root. -/
structure Connected (t : FrameTree K) (target source : String) : Prop where
  target_known : target ∈ t.frames
  source_known : source ∈ t.frames
  target_acyclic : ∀ entry, ¬ t.RunsInto target entry
  source_acyclic : ∀ entry, ¬ t.RunsInto source entry
  root : ∃ root, t.EndsAt target root ∧ t.EndsAt source root

variable {target source : String}

/-- Chains meet if their frames lie below one root, because both of them hold that root. -/
theorem exists_meet?_of_endsAt {toTarget toSource : FrameChain K}
    (htarget : t.chain target = .ok toTarget) (hsource : t.chain source = .ok toSource)
    (hends : t.EndsAt target root) (hends' : t.EndsAt source root) :
    ∃ T S, meet? toTarget toSource = some (T, S) := by
  obtain ⟨top, hmem, htop⟩ := (isWalk_of_chain htarget).1.exists_endsAt
  obtain ⟨top', hmem', htop'⟩ := (isWalk_of_chain hsource).1.exists_endsAt
  obtain rfl := htop.unique hends
  obtain rfl := htop'.unique hends'
  obtain ⟨p, hp, hname⟩ := List.mem_map.mp hmem
  obtain ⟨q, hq, rfl⟩ := List.mem_map.mp hmem'
  have hfound : (toTarget.lookup q.1).isSome :=
    List.lookup_isSome_iff.mpr ⟨p, hp, beq_iff_eq.mpr hname.symm⟩
  obtain ⟨T, hT⟩ := Option.isSome_iff_exists.mp hfound
  exact exists_meet? hT hq

/-- Frames whose chains meet lie below one root. -/
theorem endsAt_of_meet? {toTarget toSource : FrameChain K} (htarget : t.chain target = .ok toTarget)
    (hsource : t.chain source = .ok toSource) {T S : Pose K}
    (hmeet : meet? toTarget toSource = some (T, S)) :
    ∃ root, t.EndsAt target root ∧ t.EndsAt source root := by
  obtain ⟨frame, hT, hS⟩ := exists_of_meet? hmeet
  obtain ⟨htargetWalk, -⟩ := isWalk_of_chain htarget
  obtain ⟨hsourceWalk, -⟩ := isWalk_of_chain hsource
  obtain ⟨root, -, hends⟩ := htargetWalk.exists_endsAt
  have hbelow := hends.of_reaches (htargetWalk.reaches (List.mem_map_of_mem hT))
  exact ⟨root, hends, (hsourceWalk.reaches (List.mem_map_of_mem hS)).trans hbelow.reaches,
    hbelow.isRoot⟩

/-- By cases on the two chains: both frames have one and they meet, or the first thing that is wrong
is reported. -/
theorem lookup_cases (t : FrameTree K) (target source : String) :
    (∃ X, t.lookup target source = .ok X) ∧ t.Connected target source ∨
      ∃ e, t.lookup target source = .error e ∧ t.Refused target source e := by
  unfold lookup
  cases htarget : t.chain target with
  | error e => exact .inr ⟨e, rfl, .target (adrift_of_chain htarget)⟩
  | ok toTarget =>
    have hresolves : t.Resolves target := ⟨toTarget, htarget⟩
    cases hsource : t.chain source with
    | error e => exact .inr ⟨e, rfl, .source hresolves (adrift_of_chain hsource)⟩
    | ok toSource =>
      obtain ⟨hknown, root, hends⟩ := resolves_iff.mp hresolves
      obtain ⟨hknown', root', hends'⟩ := resolves_iff.mp ⟨toSource, hsource⟩
      simp only [bind, Except.bind]
      cases hmeet : meet? toTarget toSource with
      | some p =>
        exact .inl ⟨⟨_, rfl⟩, hknown, hknown', fun _ => hends.not_runsInto,
          fun _ => hends'.not_runsInto, endsAt_of_meet? htarget hsource hmeet⟩
      | none =>
        refine .inr ⟨_, rfl, .apart hends hends' ?_⟩
        rintro rfl
        obtain ⟨T, S, hmet⟩ := exists_meet?_of_endsAt htarget hsource hends hends'
        rw [hmeet] at hmet
        cases hmet

/-- Nothing is wrong with frames that are connected. -/
theorem Connected.not_refused (h : t.Connected target source) {e : FrameError} :
    ¬ t.Refused target source e := by
  obtain ⟨root, hends, hends'⟩ := h.root
  rintro (⟨hadrift⟩ | ⟨-, hadrift⟩ | ⟨htarget, hsource, hne⟩)
  · rcases hadrift with hunknown | hruns
    · exact hunknown h.target_known
    · exact h.target_acyclic _ hruns
  · rcases hadrift with hunknown | hruns
    · exact hunknown h.source_known
    · exact h.source_acyclic _ hruns
  · exact hne ((htarget.unique hends).trans (hends'.unique hsource))

/-- Whatever the links are, two frames have a relation exactly if both are known, no walk from them
runs into a cycle and their walks end at one root; otherwise it is told what is wrong. A chain is a
walk that ends, with one frame more than there are links at most, and climbing always comes to an
end within that many frames. -/
theorem lookup_outcome (t : FrameTree K) :
    (∀ target source,
      ((∃ X, t.lookup target source = .ok X) ↔ t.Connected target source) ∧
      (¬ t.Connected target source →
        ∃ e, t.lookup target source = .error e ∧ t.Refused target source e)) ∧
    (∀ frame chain, t.chain frame = .ok chain →
      t.IsWalk frame (chain.map Prod.fst) ∧ chain.length ≤ t.links.length + 1) ∧
    ∀ frame T, t.climbWithin (t.links.length + 1) [] frame T = some (t.climb [] frame T) := by
  refine ⟨fun target source => ?_, fun frame chain => isWalk_of_chain, fun frame T => ?_⟩
  · obtain ⟨⟨X, hX⟩, hconnected⟩ | ⟨e, he, hrefused⟩ := t.lookup_cases target source
    · exact ⟨⟨fun _ => hconnected, fun _ => ⟨X, hX⟩⟩, fun hapart => absurd hconnected hapart⟩
    · have hapart : ¬ t.Connected target source := fun h => h.not_refused hrefused
      refine ⟨⟨fun ⟨X, hX⟩ => ?_, fun h => absurd h hapart⟩, fun _ => ⟨e, he, hrefused⟩⟩
      rw [he] at hX
      cases hX
  · have hlinks : t.remaining [] ≤ t.links.length := List.countP_le_length
    exact climbWithin_eq (by omega)

/-- A lidar and an odometer below the world, a camera whose walk runs into a cycle that it is not
on, and a frame that is its own parent. -/
def tangled : FrameTree Float where
  links := [("lidar", ⟨"imu", 0, .identity⟩), ("imu", ⟨"world", 0, .identity⟩),
    ("odom", ⟨"world", 0, .identity⟩), ("camera", ⟨"gimbal", 0, .identity⟩),
    ("gimbal", ⟨"mount", 0, .identity⟩), ("mount", ⟨"gimbal", 0, .identity⟩),
    ("loop", ⟨"loop", 0, .identity⟩)]

/-- The lidar is related to the odometer although the walk of the camera does not end. -/
theorem lookup_tangled :
    (∃ X, tangled.lookup "lidar" "odom" = .ok X) ∧
    (∃ e, tangled.lookup "lidar" "camera" = .error e) ∧
    ∃ chain, tangled.chain "lidar" = .ok chain ∧ tangled.IsWalk "lidar" (chain.map Prod.fst) := by
  obtain ⟨hlookup, hchain, -⟩ := lookup_outcome tangled
  have hodom : tangled.EndsAt "odom" "world" := ⟨.single ⟨_, rfl, rfl⟩, rfl⟩
  have hlidar : tangled.EndsAt "lidar" "world" :=
    ⟨.head ⟨_, rfl, rfl⟩ (.single ⟨_, rfl, rfl⟩), rfl⟩
  have hcamera : tangled.RunsInto "camera" "gimbal" :=
    ⟨.single ⟨_, rfl, rfl⟩, .head ⟨_, rfl, rfl⟩ (.single ⟨_, rfl, rfl⟩)⟩
  have hknown : "lidar" ∈ tangled.frames ∧ "odom" ∈ tangled.frames := by
    simp only [mem_frames]
    decide
  have hconnected : tangled.Connected "lidar" "odom" :=
    ⟨hknown.1, hknown.2, fun _ => hlidar.not_runsInto, fun _ => hodom.not_runsInto,
      "world", hlidar, hodom⟩
  have hapart : ¬ tangled.Connected "lidar" "camera" := fun h => h.source_acyclic _ hcamera
  obtain ⟨e, he, -⟩ := (hlookup "lidar" "camera").2 hapart
  obtain ⟨chain, hresolved⟩ := resolves_iff.mpr ⟨hknown.1, "world", hlidar⟩
  exact ⟨(hlookup "lidar" "odom").1.mpr hconnected, ⟨e, he⟩, chain, hresolved,
    (hchain "lidar" chain hresolved).1⟩

end LiveMap.FrameTree
