import LiveMap.Bus.Clients

/-!
# What a publication changes

Whoever listens, a publication is recorded once, and what serves it changes no more than this: a
frame tree may take the relation that was told, and subscriptions end only where a recorder ends
them. A tree that is fed from the channel does take the relation.

## Main definitions

* `Bus.Served`: what the listeners of a message can do to a bus.
* `Bus.Feeds`: a channel feeds a frame tree, and no recorder ends that.

## Main statements

* `Bus.sent_publish`, `Bus.link?_publish`, `Bus.Feeds.publish`.
* `Bus.Feeds.link?_publish_self`: the tree that is fed holds the relation that was told.
-/

namespace LiveMap

/-! ## Deliveries -/

section Deliver

variable {ι W : Type} {call : ι → W → W × Bool} {noteFailure : W → W}

theorem deliver_append (xs ys : List (Subscription ι)) (w : W) :
    deliver call noteFailure (xs ++ ys) w =
      deliver call noteFailure ys (deliver call noteFailure xs w) := by
  induction xs generalizing w with
  | nil => rfl
  | cons s xs ih =>
    simp only [List.cons_append, deliver]
    cases call s.listener w with
    | mk w' ok => cases ok <;> exact ih _

/-- What one listener brings about and all others keep, a delivery that it is part of brings
about. -/
theorem deliver_establishes {P Q : W → Prop} (hcall : ∀ l w, P w → P (call l w).1)
    (hnote : ∀ w, P w → P (noteFailure w)) (hkeep : ∀ l w, P w → Q w → Q (call l w).1)
    (hkeepNote : ∀ w, Q w → Q (noteFailure w)) {s : Subscription ι}
    (hmade : ∀ w, P w → Q (call s.listener w).1) {subs : List (Subscription ι)} (hs : s ∈ subs)
    {w : W} (hw : P w) : Q (deliver call noteFailure subs w) := by
  obtain ⟨before, after, rfl⟩ := List.append_of_mem hs
  rw [deliver_append]
  have hbefore : P (deliver call noteFailure before w) := deliver_preserves hcall hnote before w hw
  generalize deliver call noteFailure before w = u at hbefore
  have hboth : ∀ v, P v ∧ Q v → P (deliver call noteFailure after v) ∧
      Q (deliver call noteFailure after v) :=
    deliver_preserves (fun l v h => ⟨hcall l v h.1, hkeep l v h.1 h.2⟩)
      (fun v h => ⟨hnote v h.1, hkeepNote v h.2⟩) after
  have hP := hcall s.listener u hbefore
  have hQ := hmade u hbefore
  simp only [deliver]
  cases hc : call s.listener u with
  | mk v ok =>
    rw [hc] at hP hQ
    cases ok
    · exact (hboth _ ⟨hnote v hP, hkeepNote v hQ⟩).2
    · exact (hboth _ ⟨hP, hQ⟩).2

end Deliver

namespace Bus

variable {K χ ρ : Type} [DecidableEq χ] [Scalar K]

/-- The link that a relation puts into a tree when it stands for the pose `T`. -/
def linkOf (t : StampedTransform K) (T : Pose K) : FrameLink K :=
  ⟨t.header.frame, t.header.stamp, T⟩

/-- What serving a message can do to a bus. -/
structure Served (m : Message K) (b c : Bus K χ ρ) : Prop where
  sent : c.sent = b.sent
  script : c.script = b.script
  trees : c.trees.length = b.trees.length
  link : ∀ i frame, (c.treeAt i).link? frame = (b.treeAt i).link? frame ∨
    ∃ t T, m = .relation t ∧ t.toPose = .ok T ∧ frame = t.child ∧
      (c.treeAt i).link? frame = some (linkOf t T)
  live : ∀ a, ∀ s ∈ (b.channels a).live, (∀ r, .unsubscribe a s.handle ∉ b.script r) →
    s ∈ (c.channels a).live

namespace Served

variable {m : Message K} {b c d : Bus K χ ρ}

omit [DecidableEq χ] in
theorem refl (m : Message K) (b : Bus K χ ρ) : Served m b b :=
  ⟨rfl, rfl, rfl, fun _ _ => .inl rfl, fun _ _ hs _ => hs⟩

omit [DecidableEq χ] in
theorem trans (h : Served m b c) (g : Served m c d) : Served m b d where
  sent := g.sent.trans h.sent
  script := g.script.trans h.script
  trees := g.trees.trans h.trees
  link i frame := by
    rcases g.link i frame with hg | hg
    · rw [hg]
      exact h.link i frame
    · exact .inr hg
  live a s hs hkept := g.live a s (h.live a s hs hkept) (h.script ▸ hkept)

omit [DecidableEq χ] in
theorem note (n : Notice K) (h : Served m b c) : Served m b (note n c) :=
  ⟨h.sent, h.script, h.trees, h.link, h.live⟩

end Served

/-! ## One listener -/

theorem served_setChannel (m : Message K) {a : χ} {c : Channel (Listener ρ)} {b : Bus K χ ρ}
    (h : ∀ s ∈ (b.channels a).live, (∀ r, .unsubscribe a s.handle ∉ b.script r) → s ∈ c.live) :
    Served m b (b.setChannel a c) where
  sent := rfl
  script := rfl
  trees := rfl
  link _ _ := .inl rfl
  live x s hs hkept := by
    by_cases hx : x = a
    · subst hx
      simpa using h s hs hkept
    · rwa [channels_setChannel_of_ne _ _ hx]

theorem served_performActs (m : Message K) {acts : List (Recorder.Act χ ρ)} {b : Bus K χ ρ}
    (h : ∀ act ∈ acts, ∃ r, act ∈ b.script r) : Served m b (performActs acts b).1 := by
  induction acts generalizing b with
  | nil => exact .refl m b
  | cons act rest ih =>
    have hrest : ∀ act ∈ rest, ∃ r, act ∈ b.script r := fun x hx => h x (List.mem_cons_of_mem _ hx)
    cases act with
    | subscribe a l =>
      have hstep : Served m b (b.subscribe a l) :=
        .note _ (served_setChannel m fun s hs _ => List.mem_append_left _ hs)
      exact hstep.trans (ih hrest)
    | unsubscribe a handle =>
      have hstep : Served m b (b.unsubscribe a handle) := by
        obtain ⟨r, hr⟩ := h _ List.mem_cons_self
        refine served_setChannel m fun s hs hkept => ?_
        have hne : s.handle ≠ handle := by
          rintro rfl
          exact hkept r hr
        simpa using ⟨hs, hne⟩
      exact hstep.trans (ih hrest)
    | fail => exact .refl m b

section Trees

omit [DecidableEq χ]

omit [Scalar K] in
theorem treeAt_set (i : Nat) (client : TreeClient K χ) (b : Bus K χ ρ) (j : Nat) :
    ({ b with trees := b.trees.set i client } : Bus K χ ρ).treeAt j =
      if i = j ∧ j < b.trees.length then client.tree else b.treeAt j := by
  simp only [treeAt, List.getElem?_set]
  grind

theorem feedTree_relation {b : Bus K χ ρ} {i : Nat} {client : TreeClient K χ}
    (hclient : b.trees[i]? = some client) {t : StampedTransform K} {T : Pose K}
    (hT : t.toPose = .ok T) :
    b.feedTree i (.relation t) =
      ({ b with trees := b.trees.set i ⟨client.tree.put t.child (linkOf t T), client.source⟩ },
        true) := by
  simp [feedTree, hclient, FrameTree.putMessage, hT, linkOf, bind, Except.bind, pure, Except.pure]

theorem served_feedTree (i : Nat) (m : Message K) (b : Bus K χ ρ) :
    Served m b (b.feedTree i m).1 := by
  cases m with
  | relation t =>
    cases hclient : b.trees[i]? with
    | none => simpa [feedTree, hclient] using .refl _ b
    | some client =>
      cases hT : t.toPose with
      | error e =>
        simpa [feedTree, hclient, FrameTree.putMessage, hT, bind, Except.bind] using .refl _ b
      | ok T =>
        rw [feedTree_relation hclient hT]
        refine ⟨rfl, rfl, List.length_set, fun j frame => ?_, fun _ _ hs _ => hs⟩
        rw [treeAt_set]
        split
        next h =>
          obtain ⟨rfl, -⟩ := h
          have htree : b.treeAt i = client.tree := by simp [treeAt, hclient]
          rw [htree]
          by_cases hframe : frame = t.child
          · subst hframe
            exact .inr ⟨t, T, rfl, hT, rfl, FrameTree.link?_put_self _ _ _⟩
          · exact .inl (FrameTree.link?_put_of_ne _ _ hframe)
        next => exact .inl rfl
  | cloud _ => exact .refl _ b
  | odometry _ => exact .refl _ b
  | pose _ => exact .refl _ b

theorem served_feedScene (i : Nat) (part : Output) (m : Message K) (b : Bus K χ ρ) :
    Served m b (b.feedScene i part m).1 := by
  unfold feedScene
  split <;> exact ⟨rfl, rfl, rfl, fun _ _ => .inl rfl, fun _ _ hs _ => hs⟩

end Trees

theorem served_call (m : Message K) (l : Listener ρ) (b : Bus K χ ρ) :
    Served m b (call m l b).1 := by
  cases l with
  | recorder r =>
    have hrecorded : Served m b { b with delivered := b.delivered ++ [(r, m)] } :=
      ⟨rfl, rfl, rfl, fun _ _ => .inl rfl, fun _ _ hs _ => hs⟩
    exact hrecorded.trans (served_performActs m fun act hact => ⟨r, hact⟩)
  | tree i => exact served_feedTree i m b
  | scene i part => exact served_feedScene i part m b

/-! ## One publication -/

variable {m : Message K} {a : χ} {b : Bus K χ ρ}

/-- A publication is recorded, and then served. -/
theorem served_publish (a : χ) (m : Message K) (b : Bus K χ ρ) :
    Served m { b with sent := b.sent ++ [(a, m)] } (b.publish a m) := by
  have hcounted := served_setChannel m (b := { b with sent := b.sent ++ [(a, m)] }) (a := a)
    (c := { b.channels a with published := (b.channels a).published + 1 }) fun s hs _ => hs
  exact deliver_preserves (P := Served m { b with sent := b.sent ++ [(a, m)] })
    (fun l c hc => hc.trans (served_call m l c)) (fun c hc => hc.note _) _ _ hcounted

@[simp] theorem sent_publish (a : χ) (m : Message K) (b : Bus K χ ρ) :
    (b.publish a m).sent = b.sent ++ [(a, m)] := (served_publish a m b).sent

/-- A publication leaves the relation of a frame alone unless it tells another one. -/
theorem link?_publish {frame : String} (h : ∀ t, m = .relation t → frame ≠ t.child) (i : Nat) :
    ((b.publish a m).treeAt i).link? frame = (b.treeAt i).link? frame := by
  rcases (served_publish a m b).link i frame with hsame | ⟨t, T, ht, -, hframe, -⟩
  · exact hsame
  · exact absurd hframe (h t ht)

theorem link?_publish_of_ne {t : StampedTransform K} {frame : String} (h : frame ≠ t.child)
    (i : Nat) :
    ((b.publish a (.relation t)).treeAt i).link? frame = (b.treeAt i).link? frame := by
  refine link?_publish (fun t' ht' => ?_) i
  obtain rfl : t = t' := by simpa using ht'
  exact h

/-- The channel feeds a frame tree by a subscription, which no recorder ends. -/
structure Feeds (b : Bus K χ ρ) (a : χ) (i handle : Nat) : Prop where
  subscribed : ⟨handle, .tree i⟩ ∈ (b.channels a).live
  kept : ∀ r, .unsubscribe a handle ∉ b.script r
  placed : i < b.trees.length

theorem Feeds.publish {i handle : Nat} (h : b.Feeds a i handle) (x : χ) (m : Message K) :
    (b.publish x m).Feeds a i handle := by
  have hserved := served_publish x m b
  refine ⟨hserved.live a _ h.subscribed h.kept, fun r => ?_, ?_⟩
  · rw [hserved.script]
    exact h.kept r
  · rw [hserved.trees]
    exact h.placed

omit [DecidableEq χ] [Scalar K] in
theorem Feeds.withNotices {i handle : Nat} (h : b.Feeds a i handle) (notices : List (Notice K)) :
    ({ b with notices } : Bus K χ ρ).Feeds a i handle :=
  ⟨h.subscribed, h.kept, h.placed⟩

omit [Scalar K] in
/-- A frame tree that is attached to a channel is fed by it. -/
theorem feeds_attachTree {i : Nat} (hi : i < b.trees.length)
    (h : ∀ r, .unsubscribe a ((b.detachTree i).nextHandle a) ∉ b.script r) :
    (b.attachTree i a).Feeds a i ((b.detachTree i).nextHandle a) := by
  have hdetached : (b.detachTree i).script = b.script ∧
      (b.detachTree i).trees.length = b.trees.length := by
    unfold detachTree
    split
    · exact ⟨rfl, rfl⟩
    · exact ⟨rfl, List.length_modify _ _ _⟩
  refine ⟨?_, ?_, ?_⟩
  · simp [attachTree, setTreeSource, subscribe, note, nextHandle]
  · simpa [attachTree, setTreeSource, subscribe, note, setChannel, hdetached.1] using h
  · simpa [attachTree, setTreeSource, subscribe, note, setChannel, hdetached.2] using hi

/-- Someone listens to a channel whom no recorder makes leave. -/
def Keeps (b : Bus K χ ρ) (a : χ) : Prop :=
  ∃ s ∈ (b.channels a).live, ∀ r, .unsubscribe a s.handle ∉ b.script r

omit [DecidableEq χ] [Scalar K] in
theorem Keeps.isHeard (h : b.Keeps a) : b.isHeard a = true := by
  obtain ⟨s, hs, -⟩ := h
  simpa [Bus.isHeard, Channel.isHeard, Channel.count] using List.ne_nil_of_mem hs

theorem Keeps.publish (h : b.Keeps a) (x : χ) (m : Message K) : (b.publish x m).Keeps a := by
  obtain ⟨s, hs, hkept⟩ := h
  have hserved := served_publish x m b
  exact ⟨s, hserved.live a s hs hkept, hserved.script ▸ hkept⟩

/-- The tree that a channel feeds holds the relation that is told on it. -/
theorem Feeds.link?_publish_self {i handle : Nat} (h : b.Feeds a i handle) {t : StampedTransform K}
    {T : Pose K} (hT : t.toPose = .ok T) :
    ((b.publish a (.relation t)).treeAt i).link? t.child = some (linkOf t T) := by
  rw [Bus.publish, Outlet.publish]
  refine deliver_establishes (P := fun c : Bus K χ ρ => i < c.trees.length)
    (Q := fun c => (c.treeAt i).link? t.child = some (linkOf t T)) (s := ⟨handle, Listener.tree i⟩)
    ?_ ?_ ?_ ?_ ?_ h.subscribed h.placed
  · intro l c hc
    rw [(served_call _ l c).trees]
    exact hc
  · exact fun c hc => hc
  · intro l c _ hc
    rcases (served_call (.relation t) l c).link i t.child with hsame | ⟨t', T', ht, hT', -, hlink⟩
    · exact hsame.trans hc
    · obtain rfl : t = t' := by simpa using ht
      obtain rfl : T = T' := by simpa [hT] using hT'
      exact hlink
  · exact fun c hc => hc
  · intro c hc
    have hclient : c.trees[i]? = some c.trees[i] := List.getElem?_eq_getElem hc
    rw [call, feedTree_relation hclient hT, treeAt_set, if_pos ⟨rfl, hc⟩,
      FrameTree.link?_put_self]

/-! ## Listeners that come and go -/

section Listening

omit [Scalar K]

variable {s : Subscription (Listener ρ)}

theorem mem_live_subscribe (h : s ∈ (b.channels a).live) (x : χ) (l : Listener ρ) :
    s ∈ ((b.subscribe x l).channels a).live := by
  change s ∈ ((b.setChannel x _).channels a).live
  by_cases hx : a = x
  · subst hx
    rw [channels_setChannel_self]
    exact List.mem_append_left _ h
  · rwa [channels_setChannel_of_ne _ b hx]

theorem mem_live_unsubscribe (h : s ∈ (b.channels a).live) {x : χ} {handle : Nat}
    (hne : (x, handle) ≠ (a, s.handle)) : s ∈ ((b.unsubscribe x handle).channels a).live := by
  rw [unsubscribe]
  by_cases hx : a = x
  · subst hx
    have hhandle : s.handle ≠ handle := fun heq => hne (by rw [heq])
    simpa using ⟨h, hhandle⟩
  · rwa [channels_setChannel_of_ne _ b hx]

end Listening

end Bus

end LiveMap
