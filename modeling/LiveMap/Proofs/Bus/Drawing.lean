import LiveMap.Proofs.Bus.Publication
import Mathlib.Data.List.Infix

/-!
# What a publication draws

The program that shows a scene keeps the relation that was drawn last at an entity. A scene that is
fed with relations draws each at the entity of its child, and nothing else draws relations.

## Main definitions

* `Bus.standing?`: the relation that was drawn last at an entity.
* `Bus.placeOf`: where an entity stands, by the relations on the way to it.
* `Bus.Redrawn`: what the listeners of a message can do to scenes that share their entities.
* `Bus.Shows`: a channel feeds a scene with relations, and no recorder ends that.

## Main statements

* `Bus.redrawn_publish`, `Bus.standing?_publish`, `Bus.Shows.publish`: one publication.
* `Bus.Shows.standing?_publish_self`: the relation that was told stands at the entity of its child.
* `Bus.shows_addSources`: a scene that is attached is fed.
-/

namespace LiveMap

variable {K χ ρ : Type}

/-- The entity of a frame in every scene that knows these entities. -/
def Scene.entityIn (paths : List (String × String)) (frame : String) : String :=
  (paths.lookup frame).getD (world ++ "/" ++ frame)

theorem Scene.entityPath_eq (s : Scene K) (frame : String) :
    s.entityPath frame = entityIn s.paths frame := rfl

/-- The entities on the way to an entity, from the root to itself. -/
def Scene.wayTo (path : String) : List String :=
  (path.toList.splitOn '/').inits.tail.map fun parts => String.ofList (['/'].intercalate parts)

/-- The translation and rotation that a draw puts at an entity, if it puts a relation there. -/
def Draw.relationAt? (path : String) : Draw K → Option (NumArray K × NumArray K)
  | .item p (.relation translation rotation) =>
    if p = path then some (translation, rotation) else none
  | _ => none

namespace Bus

/-- The relation that was drawn last at an entity. -/
def standing? (path : String) (b : Bus K χ ρ) : Option (NumArray K × NumArray K) :=
  (b.drawn.filterMap (Draw.relationAt? path)).getLast?

variable {b c d : Bus K χ ρ} {path : String} {paths : List (String × String)}

theorem standing?_draw_of_none {draws : List (Draw K)}
    (h : ∀ x ∈ draws, x.relationAt? path = none) :
    (b.draw draws).standing? path = b.standing? path := by
  rw [standing?, draw, List.filterMap_append, List.filterMap_eq_nil_iff.mpr h, List.append_nil]
  rfl

theorem standing?_drawRelation (s : Scene K) (t : StampedTransform K) (path : String)
    (b : Bus K χ ρ) :
    (b.draw (s.drawRelation t)).standing? path =
      if path = s.entityPath t.child then some (t.translation, t.rotation)
      else b.standing? path := by
  rw [standing?, draw, List.filterMap_append]
  by_cases hpath : s.entityPath t.child = path
  · simp [Scene.drawRelation, Draw.relationAt?, hpath]
  · simp [Scene.drawRelation, Draw.relationAt?, hpath, Ne.symm hpath, standing?]

section Draws

variable [Scalar K]

theorem relationAt?_drawScan (s : Scene K) (m : PointCloud K) (path : String) :
    ∀ x ∈ (s.drawScan m).1, x.relationAt? path = none := by
  unfold Scene.drawScan Scene.heightColoured
  split <;> simp [Draw.relationAt?]

theorem relationAt?_drawMap (m : PointCloud K) (path : String) :
    ∀ x ∈ (Scene.drawMap m).1, x.relationAt? path = none := by
  unfold Scene.drawMap Scene.heightColoured
  split
  · simp [Draw.relationAt?]
  · split <;> simp [Draw.relationAt?]

theorem relationAt?_drawPose (s : Scene K) (m : StampedPose K) (path : String) :
    ∀ x ∈ (s.drawPose m).1, x.relationAt? path = none := by
  unfold Scene.drawPose Scene.drawStrip
  dsimp only
  split
  · simp [Draw.relationAt?]
  · split <;> simp [Draw.relationAt?]

end Draws

/-! ## One listener -/

/-- What serving a message can do to the scenes of a bus, all of which know the same entities: a
relation may be drawn at the entity of its child. -/
structure Redrawn (paths : List (String × String)) (m : Message K) (b c : Bus K χ ρ) : Prop where
  placed : c.scenes.length = b.scenes.length
  named : ∀ client ∈ c.scenes, client.scene.paths = paths
  standing : ∀ path, c.standing? path = b.standing? path ∨
    ∃ t, m = .relation t ∧ path = Scene.entityIn paths t.child ∧
      c.standing? path = some (t.translation, t.rotation)

namespace Redrawn

variable {m : Message K}

/-- Nothing is drawn. -/
theorem quiet (hnamed : ∀ client ∈ b.scenes, client.scene.paths = paths)
    (hscenes : c.scenes = b.scenes) (hdrawn : c.drawn = b.drawn) : Redrawn paths m b c :=
  ⟨by rw [hscenes], hscenes ▸ hnamed, fun path => .inl (by rw [standing?, standing?, hdrawn])⟩

theorem trans (h : Redrawn paths m b c) (g : Redrawn paths m c d) : Redrawn paths m b d where
  placed := g.placed.trans h.placed
  named := g.named
  standing path := by
    rcases g.standing path with hsame | hdrawn
    · rw [hsame]
      exact h.standing path
    · exact .inr hdrawn

theorem note (n : Notice K) (h : Redrawn paths m b c) : Redrawn paths m b (note n c) :=
  ⟨h.placed, h.named, h.standing⟩

/-- Other things are drawn than relations. -/
theorem draw_of_none {draws : List (Draw K)}
    (hnamed : ∀ client ∈ b.scenes, client.scene.paths = paths)
    (hdraws : ∀ path, ∀ x ∈ draws, x.relationAt? path = none) :
    Redrawn paths m b (b.draw draws) :=
  ⟨rfl, hnamed, fun path => .inl (standing?_draw_of_none (hdraws path))⟩

end Redrawn

theorem performActs_scenes [DecidableEq χ] (acts : List (Recorder.Act χ ρ)) (b : Bus K χ ρ) :
    (performActs acts b).1.scenes = b.scenes ∧ (performActs acts b).1.drawn = b.drawn := by
  induction acts generalizing b with
  | nil => exact ⟨rfl, rfl⟩
  | cons act rest ih =>
    cases act with
    | subscribe a l => exact ih (b.subscribe a l)
    | unsubscribe a handle => exact ih (b.unsubscribe a handle)
    | fail => exact ⟨rfl, rfl⟩

variable [Scalar K]

theorem feedTree_scenes (i : Nat) (m : Message K) (b : Bus K χ ρ) :
    (b.feedTree i m).1.scenes = b.scenes ∧ (b.feedTree i m).1.drawn = b.drawn := by
  unfold feedTree
  split
  · split <;> exact ⟨rfl, rfl⟩
  · exact ⟨rfl, rfl⟩

theorem redrawn_feedScene (hnamed : ∀ client ∈ b.scenes, client.scene.paths = paths) (i : Nat)
    (part : Output) (m : Message K) : Redrawn paths m b (b.feedScene i part m).1 := by
  unfold feedScene
  split
  next t client hclient =>
    have hpaths := hnamed client (List.mem_of_getElem? hclient)
    refine ⟨rfl, hnamed, fun path => ?_⟩
    dsimp only
    rw [standing?_drawRelation, Scene.entityPath_eq, hpaths]
    split
    next hpath => exact .inr ⟨t, rfl, hpath, rfl⟩
    next => exact .inl rfl
  next m client hclient => exact .draw_of_none hnamed (relationAt?_drawScan client.scene m)
  next m client hclient => exact .draw_of_none hnamed (relationAt?_drawMap m)
  next m client hclient =>
    have hdrawn : Redrawn paths (.pose m) b (b.draw (client.scene.drawPose m).1) :=
      .draw_of_none hnamed (relationAt?_drawPose client.scene m)
    refine ⟨List.length_set, fun client' hclient' => ?_, hdrawn.standing⟩
    rcases List.mem_or_eq_of_mem_set hclient' with hold | rfl
    · exact hnamed client' hold
    · exact hnamed client (List.mem_of_getElem? hclient)
  next => exact .quiet hnamed rfl rfl

variable [DecidableEq χ]

theorem redrawn_call (hnamed : ∀ client ∈ b.scenes, client.scene.paths = paths) (m : Message K)
    (l : Listener ρ) : Redrawn paths m b (call m l b).1 := by
  cases l with
  | recorder r =>
    have hacts := performActs_scenes (b.script r) { b with delivered := b.delivered ++ [(r, m)] }
    exact .quiet hnamed hacts.1 hacts.2
  | tree i => exact .quiet hnamed (feedTree_scenes i m b).1 (feedTree_scenes i m b).2
  | scene i part => exact redrawn_feedScene hnamed i part m

/-! ## One publication -/

variable {m : Message K} {a : χ}

theorem redrawn_publish (hnamed : ∀ client ∈ b.scenes, client.scene.paths = paths) (a : χ)
    (m : Message K) : Redrawn paths m b (b.publish a m) :=
  deliver_preserves (P := Redrawn paths m b) (fun l _ hc => hc.trans (redrawn_call hc.named m l))
    (fun _ hc => hc.note _) _ _ (.quiet hnamed rfl rfl)

/-- A publication leaves an entity alone unless it tells the relation of its frame. -/
theorem standing?_publish (hnamed : ∀ client ∈ b.scenes, client.scene.paths = paths)
    (h : ∀ t, m = .relation t → path ≠ Scene.entityIn paths t.child) :
    (b.publish a m).standing? path = b.standing? path := by
  rcases (redrawn_publish hnamed a m).standing path with hsame | ⟨t, ht, hpath, -⟩
  · exact hsame
  · exact absurd hpath (h t ht)

theorem standing?_publish_of_ne (hnamed : ∀ client ∈ b.scenes, client.scene.paths = paths)
    {t : StampedTransform K} (h : path ≠ Scene.entityIn paths t.child) :
    (b.publish a (.relation t)).standing? path = b.standing? path := by
  refine standing?_publish hnamed fun t' ht' => ?_
  obtain rfl : t = t' := by simpa using ht'
  exact h

/-- The channel feeds a scene with relations by a subscription, which no recorder ends. All scenes
know the same entities. -/
structure Shows (b : Bus K χ ρ) (a : χ) (i handle : Nat) (paths : List (String × String)) :
    Prop where
  subscribed : ⟨handle, .scene i .relations⟩ ∈ (b.channels a).live
  kept : ∀ r, .unsubscribe a handle ∉ b.script r
  placed : i < b.scenes.length
  named : ∀ client ∈ b.scenes, client.scene.paths = paths

omit [Scalar K] [DecidableEq χ] in
theorem Shows.exists_scene {i handle : Nat} (h : b.Shows a i handle paths) :
    ∃ shown, b.sceneAt? i = some shown ∧ shown.paths = paths := by
  refine ⟨(b.scenes.get ⟨i, h.placed⟩).scene, ?_, h.named _ (List.get_mem _ _)⟩
  simp [sceneAt?, h.placed]

theorem Shows.publish {i handle : Nat} (h : b.Shows a i handle paths) (x : χ) (m : Message K) :
    (b.publish x m).Shows a i handle paths := by
  have hserved := served_publish x m b
  have hredrawn := redrawn_publish h.named x m
  exact ⟨hserved.live a _ h.subscribed h.kept, fun r => hserved.script ▸ h.kept r,
    hredrawn.placed ▸ h.placed, hredrawn.named⟩

/-- The relation that is told on a channel that feeds a scene stands at the entity of its child. -/
theorem Shows.standing?_publish_self {i handle : Nat} (h : b.Shows a i handle paths)
    (t : StampedTransform K) :
    (b.publish a (.relation t)).standing? (Scene.entityIn paths t.child) =
      some (t.translation, t.rotation) := by
  rw [Bus.publish, Outlet.publish]
  refine deliver_establishes
    (P := fun c : Bus K χ ρ =>
      i < c.scenes.length ∧ ∀ client ∈ c.scenes, client.scene.paths = paths)
    (Q := fun c => c.standing? (Scene.entityIn paths t.child) = some (t.translation, t.rotation))
    (s := ⟨handle, Listener.scene i .relations⟩) ?_ ?_ ?_ ?_ ?_ h.subscribed ⟨h.placed, h.named⟩
  · rintro l c ⟨hplaced, hnamed⟩
    have hredrawn := redrawn_call hnamed (.relation t) l
    exact ⟨hredrawn.placed ▸ hplaced, hredrawn.named⟩
  · exact fun c hc => hc
  · rintro l c ⟨-, hnamed⟩ hc
    rcases (redrawn_call hnamed (.relation t) l).standing (Scene.entityIn paths t.child) with
      hsame | ⟨t', ht, -, hstanding⟩
    · exact hsame.trans hc
    · obtain rfl : t = t' := by simpa using ht
      exact hstanding
  · exact fun c hc => hc
  · rintro c ⟨hplaced, hnamed⟩
    have hclient : c.scenes[i]? = some c.scenes[i] := List.getElem?_eq_getElem hplaced
    have hpaths := hnamed c.scenes[i] (List.getElem_mem hplaced)
    simp only [call, feedScene, hclient]
    rw [standing?_drawRelation, Scene.entityPath_eq, hpaths, if_pos rfl]

/-! ## Scenes that are attached -/

section Attaching

omit [Scalar K]

theorem named_addSource (hnamed : ∀ client ∈ b.scenes, client.scene.paths = paths) (i : Nat)
    (part : Output) (x : χ) :
    ∀ client ∈ (b.addSource i part x).scenes, client.scene.paths = paths := by
  intro client hclient
  obtain ⟨j, hj⟩ := List.mem_iff_getElem?.mp hclient
  rw [addSource, List.getElem?_modify] at hj
  obtain ⟨old, hold, rfl⟩ := Option.map_eq_some_iff.mp hj
  have hpaths := hnamed old (List.mem_of_getElem? hold)
  split <;> exact hpaths

/-- What scenes are fed with besides does not matter. -/
theorem Shows.addSource {i handle : Nat} (h : b.Shows a i handle paths) (index : Nat)
    (part : Output) (x : χ) : (b.addSource index part x).Shows a i handle paths := by
  refine ⟨mem_live_subscribe h.subscribed x _, h.kept, ?_, named_addSource h.named index part x⟩
  have hlength : (b.addSource index part x).scenes.length = b.scenes.length :=
    List.length_modify ..
  exact hlength ▸ h.placed

/-- A scene that is attached to outputs, of which the first are the relations, is fed by it. -/
theorem shows_addSources {i : Nat} {address : Output → χ} (hplaced : i < b.scenes.length)
    (hnamed : ∀ client ∈ b.scenes, client.scene.paths = paths)
    (hkept : ∀ r,
      .unsubscribe (address .relations) (b.nextHandle (address .relations)) ∉ b.script r)
    (parts : List Output) :
    (b.addSources i address (.relations :: parts)).Shows (address .relations) i
      (b.nextHandle (address .relations)) paths := by
  have hfirst : (b.addSource i .relations (address .relations)).Shows (address .relations) i
      (b.nextHandle (address .relations)) paths := by
    refine ⟨?_, hkept, ?_, named_addSource hnamed i _ _⟩
    · simp [Bus.addSource, subscribe, note, nextHandle]
    · simpa [Bus.addSource, subscribe, note, setChannel] using hplaced
  rw [addSources, List.foldl_cons]
  generalize b.addSource i .relations (address .relations) = c at hfirst
  induction parts generalizing c with
  | nil => exact hfirst
  | cons part rest ih => exact ih _ (hfirst.addSource i part (address part))

/-- Attaching a frame tree changes no tree, no scene and no recorder. -/
theorem attachTree_quiet (i : Nat) (x : χ) (b : Bus K χ ρ) :
    (∀ j, (b.attachTree i x).treeAt j = b.treeAt j) ∧ (b.attachTree i x).scenes = b.scenes ∧
      (∀ path, (b.attachTree i x).standing? path = b.standing? path) ∧
      (b.attachTree i x).script = b.script := by
  have hsource (source : Option (χ × Nat)) (c : Bus K χ ρ) (j : Nat) :
      (c.setTreeSource i source).treeAt j = c.treeAt j := by
    simp only [treeAt, setTreeSource, List.getElem?_modify]
    split <;> cases c.trees[j]? <;> rfl
  have hdetached : (∀ j, (b.detachTree i).treeAt j = b.treeAt j) ∧
      (b.detachTree i).scenes = b.scenes ∧
      (∀ path, (b.detachTree i).standing? path = b.standing? path) ∧
      (b.detachTree i).script = b.script := by
    unfold detachTree
    split
    · exact ⟨fun _ => rfl, rfl, fun _ => rfl, rfl⟩
    · exact ⟨fun j => hsource none _ j, rfl, fun _ => rfl, rfl⟩
  exact ⟨fun j => (hsource _ _ j).trans (hdetached.1 j), hdetached.2⟩

omit [DecidableEq χ] in
/-- A scene that takes the entities that all others know. -/
theorem named_setPaths {i : Nat}
    (hnamed : ∀ j client, b.scenes[j]? = some client → j ≠ i → client.scene.paths = paths) :
    ∀ client ∈ (b.setPaths i paths).scenes, client.scene.paths = paths := by
  intro client hclient
  obtain ⟨j, hj⟩ := List.mem_iff_getElem?.mp hclient
  rw [setPaths, List.getElem?_modify] at hj
  obtain ⟨old, hold, rfl⟩ := Option.map_eq_some_iff.mp hj
  split
  next => rfl
  next hne => exact hnamed j old hold (Ne.symm hne)

/-- A frame tree is fed as before, whatever a scene is attached to. -/
theorem Feeds.addSources {i handle : Nat} (h : b.Feeds a i handle) (index : Nat)
    (address : Output → χ) (parts : List Output) :
    (b.addSources index address parts).Feeds a i handle := by
  rw [Bus.addSources]
  induction parts generalizing b with
  | nil => exact h
  | cons part rest ih =>
    exact ih ⟨mem_live_subscribe h.subscribed (address part) _, h.kept, h.placed⟩

/-- Attaching a scene changes no frame tree and draws nothing. -/
theorem addSources_quiet (i : Nat) (address : Output → χ) (parts : List Output) (b : Bus K χ ρ) :
    (∀ j, (b.addSources i address parts).treeAt j = b.treeAt j) ∧
      ∀ path, (b.addSources i address parts).standing? path = b.standing? path := by
  rw [addSources]
  induction parts generalizing b with
  | nil => exact ⟨fun _ => rfl, fun _ => rfl⟩
  | cons part rest ih => exact ih (b.addSource i part (address part))

end Attaching

/-! ## Places -/

/-- The pose that the relation at an entity stands for, if one was drawn there. -/
def standingPose? (path : String) (b : Bus K χ ρ) : Option (Except PoseError (Pose K)) :=
  (b.standing? path).map fun p => Pose.ofQuaternion (.ofArray p.2) (.ofArray p.1)

/-- Where an entity stands: the relations on the way to it, composed from the root. -/
def placeOf (path : String) (b : Bus K χ ρ) : Except PoseError (Pose K) :=
  (Scene.wayTo path).foldlM
    (fun T entity => (b.standingPose? entity).elim (.ok T) fun U => U.map T.compose) .identity

end Bus

end LiveMap
